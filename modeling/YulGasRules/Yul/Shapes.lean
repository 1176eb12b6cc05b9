import YulGasRules.Yul.Semantics

/-!
# Shapes of the primitive operations

An operation takes a number of arguments, and acts on the part of the state that the
variables are not in.  How many arguments it takes is its signature, and what it does to
the shared part is its action: it reads it, computes on the machine state, or changes the
world.  Most operations are instances of a few combinators, whose shapes are found here
once.  What a relation between states has to do with an operation is then a matter of the
operation's action.
-/

namespace YulGasRules.Yul

/-! ## Signatures -/

/-- The argument counts at which an operation ends normally. -/
inductive Signature where
  | never
  | exactly (count : Nat)
  | any
  deriving DecidableEq, Repr

/-- The operation ends normally at an argument count. -/
def Signature.allows : Signature → Nat → Bool
  | never, _ => false
  | exactly count, given => given == count
  | any, _ => true

/-! ## Actions -/

/-- What an operation makes of the shared part of a state and of its arguments. -/
abbrev Action := SharedState .Yul → List Literal → SharedState .Yul × Option Literal

namespace Action

/-- The shared part is read. -/
def read (value : SharedState .Yul → List Literal → Option Literal) : Action :=
  fun shared args => (shared, value shared args)

/-- The machine state is replaced, and the world kept. -/
def compute (op : MachineState → List Literal → MachineState × Option Literal) : Action :=
  fun shared args =>
    ({ shared with toMachineState := (op shared.toMachineState args).1 },
      (op shared.toMachineState args).2)

/-- The world is replaced, and the machine state kept. -/
def change (op : World → List Literal → World × Option Literal) : Action :=
  fun shared args =>
    ({ shared with toState := (op shared.toState args).1 }, (op shared.toState args).2)

/-- An entry with so many topics is logged.  At other argument counts there is none. -/
def log (count : Nat) : Action
  | shared, a :: b :: topics =>
      if topics.length == count then (SharedState.logOp a b topics.toArray shared, none)
      else (shared, none)
  | shared, _ => (shared, none)

end Action

/-! ## Shapes of the combinators -/

/-- At the argument counts of its signature the operation acts on the shared part of a
state, and at others it refuses. -/
def Transformer.Shaped (transformer : Transformer) (signature : Signature) (act : Action) :
    Prop :=
  ∀ state args, transformer state args =
    if signature.allows args.length then
      .ok (state.setSharedState (act state.toSharedState args).1,
        (act state.toSharedState args).2)
    else .error .InvalidArguments

/-- The running contract destroys itself to the benefit of `r`. -/
def World.selfdestruct (world : World) (r : AccountAddress) : World :=
  { world with
    accountMap := selfdestructAccountMap world world.executionEnv.codeOwner r
    substate :=
      { world.substate with
        selfDestructSet := insert world.executionEnv.codeOwner world.substate.selfDestructSet
        accessedAccounts := insert r world.substate.accessedAccounts } }

/-- A function of words reads its arguments alone. -/
theorem execUnOp_shaped (f : UInt256 → UInt256) :
    (execUnOp f).Shaped (.exactly 1) (.read fun _ args => some (f args[0]!))
  | _, [] => rfl
  | state, [_] => by cases state <;> rfl
  | _, _ :: _ :: _ => rfl

theorem execBinOp_shaped (f : UInt256 → UInt256 → UInt256) :
    (execBinOp f).Shaped (.exactly 2) (.read fun _ args => some (f args[0]! args[1]!))
  | _, [] => rfl
  | _, [_] => rfl
  | state, [_, _] => by cases state <;> rfl
  | _, _ :: _ :: _ :: _ => rfl

theorem execTriOp_shaped (f : UInt256 → UInt256 → UInt256 → UInt256) :
    (execTriOp f).Shaped (.exactly 3)
      (.read fun _ args => some (f args[0]! args[1]! args[2]!))
  | _, [] => rfl
  | _, [_] => rfl
  | _, [_, _] => rfl
  | state, [_, _, _] => by cases state <;> rfl
  | _, _ :: _ :: _ :: _ :: _ => rfl

/-- An operation that reads takes any arguments. -/
theorem executionEnvOp_shaped (op : ExecutionEnv .Yul → UInt256) :
    (executionEnvOp op).Shaped .any (.read fun shared _ => some (op shared.executionEnv)) := by
  intro state args
  cases state <;> rfl

theorem unaryExecutionEnvOp_shaped (op : ExecutionEnv .Yul → UInt256 → UInt256) :
    (unaryExecutionEnvOp op).Shaped (.exactly 1)
      (.read fun shared args => some (op shared.executionEnv args[0]!))
  | _, [] => rfl
  | state, [_] => by cases state <;> rfl
  | _, _ :: _ :: _ => rfl

theorem machineStateOp_shaped (op : MachineState → UInt256) :
    (machineStateOp op).Shaped .any (.read fun shared _ => some (op shared.toMachineState)) := by
  intro state args
  cases state <;> rfl

/-- The combinators on machine states compute. -/
theorem binaryMachineStateOp_shaped (op : MachineState → UInt256 → UInt256 → MachineState) :
    (binaryMachineStateOp op).Shaped (.exactly 2)
      (.compute fun machine args => (op machine args[0]! args[1]!, none))
  | _, [] => rfl
  | _, [_] => rfl
  | state, [_, _] => by cases state <;> rfl
  | _, _ :: _ :: _ :: _ => rfl

theorem binaryMachineStateOp'_shaped
    (op : MachineState → UInt256 → UInt256 → UInt256 × MachineState) :
    (binaryMachineStateOp' op).Shaped (.exactly 2)
      (.compute fun machine args => ((op machine args[0]! args[1]!).2,
        some (op machine args[0]! args[1]!).1))
  | _, [] => rfl
  | _, [_] => rfl
  | state, [_, _] => by cases state <;> rfl
  | _, _ :: _ :: _ :: _ => rfl

theorem ternaryMachineStateOp_shaped
    (op : MachineState → UInt256 → UInt256 → UInt256 → MachineState) :
    (ternaryMachineStateOp op).Shaped (.exactly 3)
      (.compute fun machine args => (op machine args[0]! args[1]! args[2]!, none))
  | _, [] => rfl
  | _, [_] => rfl
  | _, [_, _] => rfl
  | state, [_, _, _] => by cases state <;> rfl
  | _, _ :: _ :: _ :: _ :: _ => rfl

/-- The combinators on worlds change them. -/
theorem binaryStateOp_shaped (op : World → UInt256 → UInt256 → World) :
    (binaryStateOp op).Shaped (.exactly 2)
      (.change fun world args => (op world args[0]! args[1]!, none))
  | _, [] => rfl
  | _, [_] => rfl
  | state, [_, _] => by cases state <;> rfl
  | _, _ :: _ :: _ :: _ => rfl

theorem stateOp_shaped (op : World → UInt256) :
    (stateOp op).Shaped .any (.read fun shared _ => some (op shared.toState)) := by
  intro state args
  cases state <;> rfl

theorem unaryStateOp_shaped (op : World → UInt256 → World × UInt256) :
    (unaryStateOp op).Shaped (.exactly 1)
      (.change fun world args => ((op world args[0]!).1, some (op world args[0]!).2))
  | _, [] => rfl
  | state, [_] => by cases state <;> rfl
  | _, _ :: _ :: _ => rfl

/-- The shared part may also be replaced as a whole. -/
theorem ternaryCopyOp_shaped
    (op : SharedState .Yul → UInt256 → UInt256 → UInt256 → SharedState .Yul) :
    (ternaryCopyOp op).Shaped (.exactly 3)
      fun shared args => (op shared args[0]! args[1]! args[2]!, none)
  | _, [] => rfl
  | _, [_] => rfl
  | _, [_, _] => rfl
  | _, [_, _, _] => rfl
  | _, _ :: _ :: _ :: _ :: _ => rfl

theorem returndatacopyOp_shaped :
    returndatacopyOp.Shaped (.exactly 3) (.compute fun machine args =>
      (machine.returndatacopy args[0]! args[1]! args[2]!, none))
  | _, [] => rfl
  | _, [_] => rfl
  | _, [_, _] => rfl
  | state, [_, _, _] => by cases state <;> rfl
  | _, _ :: _ :: _ :: _ :: _ => rfl

theorem mloadOp_shaped :
    mloadOp.Shaped (.exactly 1) (.compute fun machine args =>
      ((machine.mload args[0]!).2, some (machine.mload args[0]!).1))
  | _, [] => rfl
  | state, [_] => by cases state <;> rfl
  | _, _ :: _ :: _ => rfl

/-- `SELFDESTRUCT` is an operation on the world. -/
theorem selfdestructOp_shaped :
    selfdestructOp.Shaped (.exactly 1) (.change fun world args =>
      (world.selfdestruct (.ofUInt256 args[0]!), none))
  | _, [] => rfl
  | state, [_] => by cases state <;> rfl
  | _, _ :: _ :: _ => rfl

/-- `RETURN` hands the state over to the exception. -/
theorem returnOp_eq (state : State) (args : List Literal) :
    returnOp state args =
      if args.length == 2 then
        .error (.YulHalt (state.setSharedState { state.toSharedState with
          toMachineState :=
            state.toSharedState.toMachineState.evmReturn args[0]! args[1]! }) ⟨1⟩)
      else .error .InvalidArguments := by
  match args with
  | [] | [_] => rfl
  | [_, _] => cases state <;> rfl
  | _ :: _ :: _ :: _ => rfl

/-- `REVERT` drops the state. -/
theorem revertOp_eq (state : State) (args : List Literal) :
    revertOp state args =
      if args.length == 2 then .error .Revert else .error .InvalidArguments := by
  match args with
  | [] | [_] | [_, _] => rfl
  | _ :: _ :: _ :: _ => rfl

/-! ## Other operations -/

/-- `POP` ignores its arguments. -/
theorem pop_shaped [FFI] : (step .POP).Shaped .any (.read fun _ _ => none) := by
  intro state args
  cases state <;> rfl

/-- The number of topics of an entry. -/
def topicCount : Operation.LOp → Nat
  | .LOG0 => 0
  | .LOG1 => 1
  | .LOG2 => 2
  | .LOG3 => 3
  | .LOG4 => 4

/-- The five log operations are one, up to the number of topics. -/
theorem log_shaped [FFI] (op : Operation.LOp) :
    (step (.Log op)).Shaped .any (.log (topicCount op)) := by
  intro state args
  cases op
  all_goals
    rcases args with _ | ⟨_, _ | ⟨_, _ | ⟨_, _ | ⟨_, _ | ⟨_, _ | ⟨_, _ | ⟨_, _⟩⟩⟩⟩⟩⟩⟩
  all_goals cases state <;> rfl

end YulGasRules.Yul
