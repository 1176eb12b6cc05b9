import YulGasRules.Yul.StraightLine
import YulGasRules.Yul.Totality

/-!
# Settings for straight-line code

Straight-line code meets four settings.  Without calls of user functions it runs
in any state at all.  Where the running contract has an account with the right
code, calls find their functions and return.  Where the code lacks these functions,
and where the running contract has no account, every call fails.
-/

namespace YulGasRules.Yul

open Fuel

/-! ## States of the running contract -/

/-- The running contract has an account, which holds `code`. -/
def Running (code : YulContract) (state : State) : Prop :=
  state.runningCode = some code

/-- The running contract has no account. -/
def Absent (state : State) : Prop :=
  state.runningCode = none

/-- The state after a call runs the caller's code if the callee ends running it. -/
theorem Running.leaveCall (definition : FunctionDefinition) {input : State × List Literal}
    {final : State} {code : YulContract} (before : Running code input.1)
    (after : Running code final) : Running code (leaveCall definition input final).1 := by
  obtain ⟨caller, args⟩ := input
  obtain ⟨shared, store, rfl⟩ := State.exists_ok_of_running before
  obtain ⟨shared', store', rfl⟩ := State.exists_ok_of_running after
  exact after

variable [FFI]

/-- The functions of a contract. -/
def YulContract.Defines (c : YulContract) (f : YulFunctionName)
    (definition : FunctionDefinition) : Prop :=
  c.functions.lookup f = some definition

/-- Operations that are total and have a semantics. -/
def ModelledPrim (prim : PrimOp) (count : Nat) : Prop :=
  TotalPrim prim count ∧ prim ∉ unmodelled

/-- `ModelledPrim`, read off the operation. -/
def isModelled (prim : PrimOp) (count : Nat) : Bool :=
  isTotal prim count && prim ∉ unmodelled

theorem modelledPrim_of_isModelled {prim : PrimOp} {count : Nat}
    (modelled : isModelled prim count = true) : ModelledPrim prim count := by
  rw [isModelled, Bool.and_eq_true, decide_eq_true_eq] at modelled
  exact ⟨total_of_isTotal modelled.1, modelled.2⟩

/-- A call found no account for the running contract. -/
def IsMissingContract (exception : Exception) : Prop :=
  ∃ name, exception = .MissingContract name

/-- A call did not find its function. -/
def IsUndefined (exception : Exception) : Prop :=
  ∃ name, exception = .MissingContractFunction name

/-- A total operation keeps every invariant that does not mind what a successful
operation may do to the running code. -/
theorem runPrim_of_total {prim : PrimOp} {count : Nat} (total : TotalPrim prim count)
    (I : State → Prop) {E : Exception → Prop}
    (kept : ∀ before after, I before → KeepsCode prim before after → I after) :
    Eventually (fun input => I input.1 ∧ input.2.length = count) (runPrim prim)
      (fun output => I output.1) E := by
  rw [totalPrim_iff] at total
  apply Eventually.of_succ
  intro fuel input both
  have ends := primCall_of_isTotal total fuel input.1 input.2 both.2
  exact ends.mono (fun output keeps => kept input.1 output.1 both.1 keeps)
    (fun _ impossible => impossible.elim)

namespace Setting

/-- Without user functions every state will do. -/
theorem callFree (codeOverride : Option YulContract) :
    Setting codeOverride TotalPrim (fun _ _ => False) (fun _ => True) (fun _ => False) True where
  insert _ _ _ _ := trivial
  prim total := runPrim_of_total total (fun _ => True) fun _ _ _ _ => trivial
  call undefined := undefined.elim

/-- Where the running contract has an account, calls return. -/
theorem running (codeOverride : Option YulContract) (code : YulContract) :
    Setting codeOverride ModelledPrim (codeOverride.getD code).Defines
      (Running code) (fun _ => False) True where
  insert state var val holds := (runningCode_insert state var val).trans holds
  prim modelled := by
    apply runPrim_of_total modelled.1 (Running code)
    intro before after holds kept
    rcases kept with same | lost
    · exact same.trans holds
    · exact absurd lost.1 modelled.2
  call {f definition} defined body := by
    refine Eventually.congr (Eventually.tick (Eventually.framed body ?_ ?_))
      fun fuel input holds => runCall_of_running codeOverride fuel input holds defined
    · intro input holds
      exact (runningCode_mkOk _).trans ((runningCode_initcall _ _ _).trans holds)
    · intro input final before after
      exact ⟨Running.leaveCall definition before after, trivial⟩

/-- Where the code does not define the functions, calls fail. -/
theorem lacking (codeOverride : Option YulContract) (code : YulContract)
    {D : YulFunctionName → FunctionDefinition → Prop}
    (lacks : ∀ f definition, D f definition →
      (codeOverride.getD code).functions.lookup f = none) :
    Setting codeOverride ModelledPrim D (Running code) IsUndefined False where
  insert := (running codeOverride code).insert
  prim modelled := ((running codeOverride code).prim modelled).mono_exceptional
    fun _ => False.elim
  call {f definition} defined _ := by
    refine Eventually.congr (Eventually.tick_const ?_) fun fuel input holds =>
      runCall_of_undefined codeOverride fuel input holds (lacks f definition defined)
    exact fun _ _ => ⟨_, rfl⟩

/-- Where the running contract has no account, calls fail.  Losing the state keeps
it so: the default state has no accounts. -/
theorem absent (codeOverride : Option YulContract)
    (D : YulFunctionName → FunctionDefinition → Prop) :
    Setting codeOverride TotalPrim D Absent IsMissingContract False where
  insert state var val holds := (runningCode_insert state var val).trans holds
  prim total := by
    apply runPrim_of_total total Absent
    intro before after holds kept
    rcases kept with same | lost
    · exact same.trans holds
    · rw [lost.2]
      exact runningCode_default
  call {f definition} _ _ := by
    refine Eventually.congr (Eventually.tick_const ?_)
      fun fuel input holds => runCall_of_absent codeOverride f fuel input holds
    exact fun _ _ => ⟨_, rfl⟩

end Setting

end YulGasRules.Yul
