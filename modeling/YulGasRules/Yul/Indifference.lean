import YulGasRules.Fuel.Relation
import YulGasRules.Yul.Meaning
import YulGasRules.Yul.Requests
import YulGasRules.Yul.Strangers
import YulGasRules.Yul.Totality

/-!
# Operations are indifferent to variables

A primitive operation takes values and keeps the variables out of sight.  Applied in
states that differ in the strangers of some code, it gives the same values, and states
that differ in the same way.

A call of another contract is different in one respect: a jump that is pending there is
handed over to the caller, together with the variables of the callee.
-/

namespace YulGasRules.Yul

open Fuel

section Outputs

variable (X : Set Identifier) (J : Set JumpKind) (W : StrangerRelation X)

/-- The states differ, and come with the same value. -/
def OutputsDiffer {α : Type} (output output' : State × α) : Prop :=
  Differ X J W output.1 output'.1 ∧ output.2 = output'.2

end Outputs

variable {X : Set Identifier} {J : Set JumpKind} {W : StrangerRelation X}

/-- Variables that are not strangers take the same values. -/
theorem OutputsDiffer.multifill {output output' : State × List Literal}
    (outputs : OutputsDiffer X J W output output') {vars : List Identifier}
    (targets : ∀ var ∈ vars, var ∉ X) :
    Differ X J W (output.1.multifill vars output.2) (output'.1.multifill vars output'.2) := by
  rw [outputs.2]
  exact outputs.1.multifill targets output'.2

/-- States that differ may be handed over by a halt. -/
theorem Differ.halt {state state' : State} (differ : Differ X J W state state')
    (value : UInt256) : HaltsDiffer X (.YulHalt state value) (.YulHalt state' value) :=
  .halt (differ.mono (Set.subset_univ J) fun _ _ _ => trivial) value

/-! ## Primitive operations -/

/-- The operation is indifferent to the strangers, provided that what is known about
them holds where they are unset: an operation without a semantics loses the state. -/
def Transformer.Indifferent (transformer : Transformer) : Prop :=
  ∀ {X : Set Identifier} {J : Set JumpKind} {W : StrangerRelation X},
    W (fun _ => ⟨0⟩) (fun _ => ⟨0⟩) → ∀ {state state' : State} (args : List Literal),
      Differ X J W state state' →
        Related (OutputsDiffer X J W) (HaltsDiffer X) (transformer state args)
          (transformer state' args)

/-- The actions are the same, since the shared parts are. -/
theorem Transformer.Shaped.indifferent {transformer : Transformer} {signature : Signature}
    {act : Action} (shaped : transformer.Shaped signature act) : transformer.Indifferent := by
  intro X J W _ state state' args differ
  rw [shaped, shaped, differ.toSharedState_eq]
  split
  · exact .ok ⟨differ.setSharedState _, rfl⟩
  · exact .error (.same _)

/-- The same exception is raised on both sides. -/
theorem raises_indifferent (exception : Exception) :
    Transformer.Indifferent fun _ _ => .error exception :=
  fun _ _ _ _ _ => .error (.same exception)

/-- The default state has no variables, so that the strangers are unset on both sides. -/
theorem unmodelledOp_indifferent : unmodelledOp.Indifferent := by
  intro X J W unset state state' args _
  exact .ok ⟨.ok default ⟨fun _ _ => rfl, unset⟩, rfl⟩

/-- Halting hands the state over to the exception. -/
theorem returnOp_indifferent : returnOp.Indifferent := by
  intro X J W _ state state' args differ
  rw [returnOp_eq, returnOp_eq, differ.toSharedState_eq]
  split
  · exact .error ((differ.setSharedState _).halt _)
  · exact .error (.same _)

/-- The state is dropped on both sides. -/
theorem revertOp_indifferent : revertOp.Indifferent := by
  intro X J W _ state state' args _
  rw [revertOp_eq, revertOp_eq]
  split <;> exact .error (.same _)

section Step

variable [FFI]

/-- A halt hands over states that differ, and a failure drops them. -/
theorem halting_indifferent {prim : PrimOp} (halts : prim ∈ halting) :
    (step prim).Indifferent := by
  simp only [halting, List.mem_cons, List.not_mem_nil, or_false] at halts
  rcases halts with rfl | rfl | rfl | rfl | rfl
  · exact fun _ _ _ _ differ => .error (differ.halt ⟨0⟩)
  · exact returnOp_indifferent
  · exact revertOp_indifferent
  · exact raises_indifferent .InvalidInstruction
  · exact raises_indifferent .YulEXTCODESIZENotImplemented

/-- Variables are out of sight for every operation. -/
theorem step_indifferent (prim : PrimOp) : (step prim).Indifferent := by
  by_cases lacking : prim ∈ unmodelled
  · rw [step_of_unmodelled lacking]
    exact unmodelledOp_indifferent
  · by_cases halts : prim ∈ halting
    · exact halting_indifferent halts
    · rcases step_hasShape prim lacking halts with ⟨_, _, shaped⟩
      exact shaped.indifferent

end Step

/-! ## Calls of other contracts -/

/-- The two sides come to outcomes that differ, or run one callee from one state, which
sees no variable of the caller. -/
inductive RequestsDiffer (X : Set Identifier) (J : Set JumpKind) (W : StrangerRelation X) :
    Request → Request → Prop where
  | done {outcome outcome' : Outcome (List Literal)}
      (outcomes : Related (OutputsDiffer X J W) (HaltsDiffer X) outcome outcome') :
      RequestsDiffer X J W (.done outcome) (.done outcome')
  | run (codeOverride : Option YulContract) (start : State)
      {return' return'' : State → Outcome (List Literal)}
      (returned : ∀ final, Related (OutputsDiffer X J W) (HaltsDiffer X) (return' final)
        (return'' final)) :
      RequestsDiffer X J W (.run codeOverride start return') (.run codeOverride start return'')

/-- The callee comes to the same on both sides, whoever answers. -/
theorem RequestsDiffer.answer {request request' : Request}
    (requests : RequestsDiffer X J W request request')
    (callee : Option YulContract → State → Outcome (List Literal)) :
    Related (OutputsDiffer X J W) (HaltsDiffer X) (request.answer callee)
      (request'.answer callee) := by
  cases requests with
  | done outcomes => exact outcomes
  | run codeOverride start returned =>
      simp only [Request.answer, contractCall]
      split
      · exact returned _
      · exact .error (.same _)
      · exact returned _

section Calls

variable {state state' : State}

/-- The permission is no variable. -/
theorem Differ.setStatic (differ : Differ X J W state state') (p : Bool) :
    Differ X J W (setStatic state p) (setStatic state' p) := by
  cases differ with
  | ok shared stores => exact .ok _ stores
  | outOfFuel => exact .outOfFuel
  | jump escapes shared stores => exact .jump escapes shared stores

/-- The callee is given the same calldata. -/
theorem Differ.calldataOf_eq (differ : Differ X J W state state') (inOffset inSize : UInt256) :
    calldataOf state inOffset inSize = calldataOf state' inOffset inSize := by
  rw [calldataOf, differ.toMachineState_eq, calldataOf]

/-- A call that does not take place leaves the variables as they are. -/
theorem buildContractCallEmptyReturnState_related (differ : Differ X J W state state')
    (accountMap₁ : Option (AccountMap .Yul)) (val : Literal) :
    RequestsDiffer X J W (.done (buildContractCallEmptyReturnState state accountMap₁ val))
      (.done (buildContractCallEmptyReturnState state' accountMap₁ val)) := by
  cases differ with
  | ok shared stores => exact .done (.ok ⟨.ok _ stores, rfl⟩)
  | outOfFuel => exact .done (.error (.same _))
  | jump escapes shared stores => exact .done (.ok ⟨.jump escapes shared stores, rfl⟩)

/-- A callee that halts with a jump pending hands this jump over to the caller, with its
own variables. -/
theorem contractCallReturn_related (reflexive : ∀ held, W held held)
    (callers : Differ X J W state state') {store store' : VarStore}
    (stores : StoresDiffer X W store store') (memory : ByteArray) (outOffset outSize : UInt256)
    (final : State) :
    Related (OutputsDiffer X Set.univ W) (HaltsDiffer X)
      (contractCallReturn state memory store outOffset outSize final)
      (contractCallReturn state' memory store' outOffset outSize final) := by
  cases final with
  | Ok shared _ =>
      simp only [contractCallReturn, callers.executionEnv_eq]
      exact .ok ⟨.ok _ stores, rfl⟩
  | OutOfFuel => exact .error (.same _)
  | Checkpoint jump => exact .ok ⟨.refl reflexive _, rfl⟩

/-- The same is transferred on both sides, or nothing. -/
theorem transferRequest_related (differ : Differ X J W state state') (value : Literal)
    (toAddr : AccountAddress) {call call' : AccountMap .Yul → Request}
    (calls : ∀ accountMap₁, RequestsDiffer X J W (call accountMap₁) (call' accountMap₁)) :
    RequestsDiffer X J W (transferRequest state value toAddr call)
      (transferRequest state' value toAddr call') := by
  simp only [transferRequest, differ.executionEnv_eq, differ.sharedState_eq]
  split
  · exact .done (.error (.same _))
  · split
    · exact buildContractCallEmptyReturnState_related differ none ⟨0⟩
    · exact calls _

/-- The same contract is called, and the caller's variables are kept aside. -/
theorem ContractCall.request_related (call : ContractCall) (differ : Differ X J W state state')
    {return' return'' : VarStore → State → Outcome (List Literal)}
    (returned : ∀ {store store'}, StoresDiffer X W store store' → ∀ final,
      Related (OutputsDiffer X J W) (HaltsDiffer X) (return' store final)
        (return'' store' final)) :
    RequestsDiffer X J W (call.request state return') (call.request state' return'') := by
  have empty := buildContractCallEmptyReturnState_related differ
  simp only [ContractCall.request, differ.executionEnv_eq]
  split
  · exact empty call.limitMap ⟨0⟩
  · cases differ with
    | outOfFuel => exact .done (.error (.same _))
    | jump escapes shared stores => exact .done (.ok ⟨.jump escapes shared stores, rfl⟩)
    | ok shared stores =>
        dsimp only
        split
        · exact empty call.accountMap₁ ⟨1⟩
        · exact .run _ _ (returned stores)

variable (reflexive : ∀ held, W held held) (differ : Differ X Set.univ W state state')
include reflexive differ

theorem callRequest_related (args : List Literal) :
    RequestsDiffer X Set.univ W (callRequest state args) (callRequest state' args) := by
  simp only [callRequest]
  split
  · simp only [differ.calldataOf_eq, differ.toMachineState_eq]
    apply transferRequest_related differ
    intro accountMap₁
    apply ContractCall.request_related _ differ
    exact fun stores => contractCallReturn_related reflexive differ stores _ _ _
  · exact .done (.error (.same _))

theorem callcodeRequest_related (args : List Literal) :
    RequestsDiffer X Set.univ W (callcodeRequest state args) (callcodeRequest state' args) := by
  simp only [callcodeRequest]
  split
  · simp only [differ.calldataOf_eq, differ.toMachineState_eq, differ.executionEnv_eq]
    apply transferRequest_related differ
    intro accountMap₁
    apply ContractCall.request_related _ differ
    exact fun stores => contractCallReturn_related reflexive differ stores _ _ _
  · exact .done (.error (.same _))

theorem delegatecallRequest_related (args : List Literal) :
    RequestsDiffer X Set.univ W (delegatecallRequest state args)
      (delegatecallRequest state' args) := by
  simp only [delegatecallRequest]
  split
  · simp only [differ.calldataOf_eq, differ.toMachineState_eq]
    apply ContractCall.request_related _ differ
    exact fun stores => contractCallReturn_related reflexive differ stores _ _ _
  · exact .done (.error (.same _))

/-- The caller is static in the meantime, and gets its permission back. -/
theorem staticcallRequest_related (args : List Literal) :
    RequestsDiffer X Set.univ W (staticcallRequest state args)
      (staticcallRequest state' args) := by
  have static := differ.setStatic false
  simp only [staticcallRequest]
  split
  · simp only [static.calldataOf_eq, static.toMachineState_eq, differ.executionEnv_eq]
    split
    · exact .done (.error (.same _))
    · apply ContractCall.request_related _ static
      intro store store' stores final
      apply (contractCallReturn_related reflexive differ stores _ _ _ final).map
      intro output output' outputs
      exact ⟨outputs.1.setStatic _, outputs.2⟩
  · exact .done (.error (.same _))

/-- What an operation asks for does not depend on the strangers. -/
theorem request_related [FFI] (prim : PrimOp) (args : List Literal) :
    RequestsDiffer X Set.univ W (request state prim args) (request state' prim args) := by
  simp only [request, differ.executionEnv_eq]
  split
  · exact .done (.error (.same _))
  · split
    · exact callRequest_related reflexive differ args
    · exact staticcallRequest_related reflexive differ args
    · exact callcodeRequest_related reflexive differ args
    · exact delegatecallRequest_related reflexive differ args
    · refine .done ((step_indifferent prim (reflexive _) args differ).map ?_)
      intro output output' outputs
      exact ⟨outputs.1, congrArg Option.toList outputs.2⟩

end Calls

/-! ## Operations at some amount of fuel -/

section Prim

variable [FFI]

/-- An operation that the strangers do not matter to, whichever jumps are pending
besides those in `J`. -/
def PrimIndifferent (X : Set Identifier) (J : Set JumpKind) (W : StrangerRelation X)
    (prim : PrimOp) : Prop :=
  ∀ J', J ⊆ J' → ∀ fuel, RelatesAt (OutputsDiffer X J' W) (OutputsDiffer X J' W)
    (HaltsDiffer X) (runPrim prim) (runPrim prim) fuel

/-- An operation that runs no other contract is indifferent, whatever is known of the
strangers. -/
theorem primIndifferent_of_own (unset : W (fun _ => ⟨0⟩) (fun _ => ⟨0⟩)) {prim : PrimOp}
    (own : prim ∉ contractCalls) : PrimIndifferent X J W prim := by
  intro J' _ fuel
  rw [runPrim_eq]
  apply RelatesAt.tick (.same _)
  intro less _
  rintro ⟨state, args⟩ ⟨state', args'⟩ ⟨differ, same⟩
  cases same
  simp only [primCallWith_of_own own, differ.executionEnv_eq]
  apply Related.ite Iff.rfl (.error (.same _))
  apply (step_indifferent prim unset args differ).map
  intro output output' outputs
  exact ⟨outputs.1, congrArg Option.toList outputs.2⟩

/-- A call of another contract may hand over a jump that is pending there, with the
variables of the callee. -/
theorem primIndifferent_of_reflexive (reflexive : ∀ held, W held held)
    (prim : PrimOp) : PrimIndifferent X Set.univ W prim := by
  intro J' all fuel
  cases Set.univ_subset_iff.mp all
  rw [runPrim_eq]
  apply RelatesAt.tick (.same _)
  intro less _
  rintro ⟨state, args⟩ ⟨state', args'⟩ ⟨differ, same⟩
  cases same
  simp only [primCallWith_eq_answer]
  exact (request_related reflexive differ prim args).answer _

end Prim

end YulGasRules.Yul
