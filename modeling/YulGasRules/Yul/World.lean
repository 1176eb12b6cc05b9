import YulGasRules.Fuel.NestedRuns
import YulGasRules.Yul.Requests

/-!
# The world and what happens to it

The world of a state is what outlives the running code: the accounts, the substate
and the environment.  Code acts on the world in a few ways only, which are listed here
as the steps of a system whose nested runs are the calls of other contracts.  Which
code runs plays no part in the system, so that what holds of its runs holds whatever
contracts are called, and whatever these call in turn.

Three steps look odd, and follow the interpreter.  The world is lost to an operation
without a semantics, and to a loop or a call that is begun while a jump is pending.  A
static call that does not take place leaves its caller in static mode.  A callee that
halts while a jump is pending leaves its caller in the callee's own environment.
-/

namespace YulGasRules.Yul

open Fuel

/-! ## Worlds of states -/

/-- The shared part of the state at jump-time. -/
def Jump.shared : Jump → SharedState .Yul
  | .Continue shared _ => shared
  | .Break shared _ => shared
  | .Leave shared _ => shared

/-- The world of a state.  A jump takes it along. -/
def State.world : State → World
  | .Ok shared _ => shared.toState
  | .OutOfFuel => default
  | .Checkpoint jump => jump.shared.toState

/-- A program that halts hands its state over in the exception. -/
def Exception.Shows : Exception → World → Prop
  | .YulHalt state _, world => state.world = world
  | _, _ => False

section Updates

variable (state : State)

/-- Variables are no part of the world. -/
@[simp] theorem world_insert (var : Identifier) (val : Literal) :
    (state.insert var val).world = state.world := by
  cases state <;> rfl

@[simp] theorem world_multifill (vars : List Identifier) (vals : List Literal) :
    (state.multifill vars vals).world = state.world := by
  cases state with
  | Ok shared store =>
      simp only [State.multifill]
      induction vars.zip vals with
      | nil => rfl
      | cons entry entries ih => exact (world_insert _ _ _).trans ih
  | OutOfFuel => rfl
  | Checkpoint jump => rfl

@[simp] theorem world_declare (vars : List Identifier) :
    (vars.foldr (fun var state => state.insert var ⟨0⟩) state).world = state.world := by
  induction vars with
  | nil => rfl
  | cons var vars ih => exact (world_insert _ _ _).trans ih

/-- Neither is the jump that is pending. -/
@[simp] theorem world_reviveJump : state.reviveJump.world = state.world := by
  cases state with
  | Ok shared store => rfl
  | OutOfFuel => rfl
  | Checkpoint jump => cases jump <;> rfl

@[simp] theorem world_setContinue : state.setContinue.world = state.world := by
  cases state <;> rfl

@[simp] theorem world_setBreak : state.setBreak.world = state.world := by
  cases state <;> rfl

@[simp] theorem world_setLeave : state.setLeave.world = state.world := by
  cases state <;> rfl

/-- A call of a user function starts in the world of the call. -/
@[simp] theorem world_initcall (params : List Identifier) (args : List Literal) :
    (state.initcall params args).world = state.world := by
  cases state with
  | Ok shared store => exact world_multifill (.Ok shared default) params args
  | OutOfFuel => rfl
  | Checkpoint jump => rfl

/-- Where the state at hand is not ordinary, the earlier one is kept. -/
theorem world_overwrite (before : State) :
    (state.overwrite? before).world = state.world ∨
      (state.overwrite? before).world = before.world := by
  cases before with
  | Ok shared store => exact .inl rfl
  | OutOfFuel => exact .inr rfl
  | Checkpoint jump => exact .inr rfl

@[simp] theorem world_setStore (other : State) : (state.setStore other).world = state.world := by
  cases state <;> cases other <;> rfl

end Updates

/-! ## Steps -/

namespace World

variable (world : World)

/-- Permission to write, or none. -/
def setPerm (perm : Bool) : World :=
  { world with executionEnv := { world.executionEnv with perm } }

/-- A log entry of the running contract. -/
def log (topics : Array UInt256) (data : ByteArray) : World :=
  { world with
    substate.logSeries :=
      world.substate.logSeries.push ⟨world.executionEnv.codeOwner, topics, data⟩ }

/-- What code does to the world by itself. -/
inductive Step : World → World → Prop where
  | addAccessedAccount (world : World) (addr : AccountAddress) :
      Step world (world.addAccessedAccount addr)
  | addAccessedStorageKey (world : World) (key : AccountAddress × UInt256) :
      Step world (world.addAccessedStorageKey key)
  | sstore (world : World) (perm : world.executionEnv.perm = true) (spos sval : UInt256) :
      Step world (world.sstore spos sval)
  | tstore (world : World) (perm : world.executionEnv.perm = true) (spos sval : UInt256) :
      Step world (world.tstore spos sval)
  | log (world : World) (perm : world.executionEnv.perm = true) (topics : Array UInt256)
      (data : ByteArray) : Step world (world.log topics data)
  | selfdestruct (world : World) (perm : world.executionEnv.perm = true)
      (r : AccountAddress) : Step world (world.selfdestruct r)
  | transfer (world : World) (toAddr : AccountAddress) (value : UInt256)
      {accountMap : AccountMap .Yul}
      (allowed : world.executionEnv.perm = true ∨ value = ⟨0⟩)
      (paid : AccountMap.transferBalance .Yul world.accountMap world.executionEnv.codeOwner
        toAddr value = some accountMap) :
      Step world { world with accountMap }
  | becomeStatic (world : World) : Step world (world.setPerm false)
  | lose (world : World) : Step world default

/-! ## Calls -/

/-- The environment of a callee with the code of `account`. -/
def enter (account : Account .Yul) (codeOwner source : AccountAddress) (weiValue : UInt256)
    (calldata : ByteArray) (perm : Bool) : World :=
  { world with
    executionEnv :=
      { world.executionEnv with
        calldata, codeOwner, source, weiValue, perm
        code := account.code
        depth := world.executionEnv.depth + 1 } }

/-- The caller's environment, with the depth that the callee has come to. -/
def resume (last : World) (perm : Bool) : World :=
  { last with
    executionEnv :=
      { last.executionEnv with
        calldata := default
        code := world.executionEnv.code
        codeOwner := world.executionEnv.codeOwner
        source := world.executionEnv.source
        weiValue := world.executionEnv.weiValue
        perm } }

/-- The callee runs in its own name or in the caller's, and with no more permissions. -/
inductive Enters : World → World → Prop where
  | call (world : World) {address codeOwner : AccountAddress} {account : Account .Yul}
      {perm : Bool} (source : AccountAddress) (weiValue : UInt256) (calldata : ByteArray)
      (found : world.accountMap.lookup address = some account)
      (shallow : world.executionEnv.depth < 1024)
      (owner : codeOwner = address ∨ codeOwner = world.executionEnv.codeOwner)
      (allowed : perm = true → world.executionEnv.perm = true) :
      Enters world (world.enter account codeOwner source weiValue calldata perm)

/-- The callee's last world is left for the caller's, or leaks into it. -/
inductive Leaves : World → World → World → Prop where
  | resume (world last : World) {perm : Bool}
      (kept : perm = last.executionEnv.perm ∨ perm = world.executionEnv.perm) :
      Leaves world last (world.resume last perm)
  | leak (world last : World) : Leaves world last last

/-- What code and the contracts that it calls do to the world. -/
def system : NestedSystem World where
  step := Step
  enter := Enters
  leave := Leaves

end World

/-! ## Outcomes -/

/-- The result and the exception show worlds that runs lead to. -/
abbrev StateReaches (world : World) : Except Exception State → Prop :=
  Reaches World.system Exception.Shows State.world world

abbrev OutputReaches {α : Type} (world : World) : Outcome α → Prop :=
  Reaches World.system Exception.Shows (fun output => output.1.world) world

namespace OutputReaches

variable {α : Type} {world : World}

theorem of_runs {output : State × α} (runs : World.system.Runs world output.1.world) :
    OutputReaches world (.ok output) :=
  runs

/-- An output in the world at the start is reached by the empty run. -/
theorem of_eq {output : State × α} (same : output.1.world = world) :
    OutputReaches world (.ok output) := by
  rw [OutputReaches, Reaches, ends_ok, same]
  exact .refl world

/-- So is a halt in this world. -/
theorem of_halt {final : State} (value : UInt256) (same : final.world = world) :
    OutputReaches world (.error (.YulHalt final value) : Outcome α) := by
  rintro shown rfl
  rw [same]
  exact .refl world

theorem invalidArguments : OutputReaches world (.error .InvalidArguments : Outcome α) :=
  Reaches.silent fun _ => id

end OutputReaches

/-! ## Operations -/

/-- Whatever the operation does to the world, it does by steps. -/
def Transformer.Acts (transformer : Transformer) : Prop :=
  ∀ state args, OutputReaches state.world (transformer state args)

/-- In a given world the action runs the system. -/
def Action.RunsIn (act : Action) (world : World) : Prop :=
  ∀ machine args, World.system.Runs world (act ⟨world, machine⟩ args).1.toState

namespace Action.RunsIn

variable (world : World)

/-- Reading leaves the world alone. -/
theorem read (value : SharedState .Yul → List Literal → Option Literal) :
    (Action.read value).RunsIn world := fun _ _ => .refl world

/-- So does a computation on the machine state. -/
theorem compute (op : MachineState → List Literal → MachineState × Option Literal) :
    (Action.compute op).RunsIn world := fun _ _ => .refl world

variable {world}

/-- A change of the world has to be a run. -/
theorem change {op : World → List Literal → World × Option Literal}
    (runs : ∀ args, World.system.Runs world (op world args).1) :
    (Action.change op).RunsIn world := fun _ args => runs args

/-- A log entry takes a permission. -/
theorem log (perm : world.executionEnv.perm = true) (count : Nat) :
    (Action.log count).RunsIn world := by
  intro machine args
  simp only [Action.log]
  split
  · split
    · exact .step (.log world perm _ _)
    · exact .refl world
  · exact .refl world

end Action.RunsIn

section Shapes

variable {transformer : Transformer} {signature : Signature} {act : Action}

/-- Only an ordinary state has a world for the action to change. -/
theorem Transformer.Shaped.reaches (shaped : transformer.Shaped signature act) {state : State}
    (runs : ∀ shared store, state = .Ok shared store → act.RunsIn shared.toState)
    (args : List Literal) : OutputReaches state.world (transformer state args) := by
  rw [shaped]
  split
  · cases state with
    | Ok shared store => exact .of_runs (runs shared store rfl shared.toMachineState args)
    | OutOfFuel => exact .of_eq rfl
    | Checkpoint jump => exact .of_eq rfl
  · exact .invalidArguments

theorem Transformer.Shaped.acts (shaped : transformer.Shaped signature act)
    (runs : ∀ world, act.RunsIn world) : transformer.Acts :=
  fun _ args => shaped.reaches (fun shared _ _ => runs shared.toState) args

/-- A violation of static mode is not reached without a permission. -/
theorem Transformer.Shaped.reaches_of_perm (shaped : transformer.Shaped signature act)
    {state : State} (perm : state.executionEnv.perm = true)
    (runs : ∀ world : World, world.executionEnv.perm = true → act.RunsIn world)
    (args : List Literal) : OutputReaches state.world (transformer state args) := by
  apply shaped.reaches
  rintro shared store rfl
  exact runs shared.toState perm

end Shapes

/-- An operation without a semantics loses the world. -/
theorem unmodelledOp_acts : unmodelledOp.Acts :=
  fun state _ => .of_runs (.step (.lose state.world))

/-- A halt shows the world as it is. -/
theorem returnOp_acts : returnOp.Acts := by
  intro state args
  rw [returnOp_eq]
  split
  · cases state <;> exact .of_halt _ rfl
  · exact .invalidArguments

theorem revertOp_acts : revertOp.Acts := by
  intro state args
  rw [revertOp_eq]
  split
  · exact Reaches.silent fun _ => id
  · exact .invalidArguments

/-! ### All operations -/

section Step

variable [FFI]

theorem stopArith_acts (op : Operation.SAOp) : (step (.StopArith op)).Acts := by
  cases op
  case STOP => exact fun _ _ => .of_halt _ rfl
  case ADDMOD | MULMOD => exact (execTriOp_shaped _).acts fun world => .read world _
  all_goals exact (execBinOp_shaped _).acts fun world => .read world _

theorem compBit_acts (op : Operation.CBLOp) : (step (.CompBit op)).Acts := by
  cases op
  case ISZERO | NOT => exact (execUnOp_shaped _).acts fun world => .read world _
  all_goals exact (execBinOp_shaped _).acts fun world => .read world _

theorem env_acts (op : Operation.EOp) : (step (.Env op)).Acts := by
  cases op
  case BALANCE =>
    exact (unaryStateOp_shaped YulGasRules.State.balance).acts fun world =>
      .change fun _ => .step (.addAccessedAccount world _)
  case CALLDATALOAD =>
    exact (unaryStateOp_shaped fun world a => (world, world.calldataload a)).acts fun world =>
      .change fun _ => .refl world
  case CALLDATACOPY => exact (ternaryCopyOp_shaped _).acts fun world _ _ => .refl world
  case RETURNDATACOPY => exact returndatacopyOp_shaped.acts fun world => .compute world _
  case RETURNDATASIZE =>
    exact (machineStateOp_shaped MachineState.returndatasize).acts fun world => .read world _
  case EXTCODESIZE => exact fun _ _ => Reaches.silent fun _ => id
  case CODESIZE | CODECOPY | EXTCODECOPY | EXTCODEHASH => exact unmodelledOp_acts
  all_goals
    simp only [step]
    exact (executionEnvOp_shaped _).acts fun world => .read world _

theorem block_acts (op : Operation.BOp) : (step (.Block op)).Acts := by
  cases op
  case BLOCKHASH =>
    exact (unaryStateOp_shaped fun world a => (world, world.blockHash a)).acts fun world =>
      .change fun _ => .refl world
  case BLOBHASH => exact (unaryExecutionEnvOp_shaped _).acts fun world => .read world _
  case PREVRANDAO | BASEFEE | BLOBBASEFEE =>
    simp only [step]
    exact (executionEnvOp_shaped _).acts fun world => .read world _
  all_goals
    simp only [step]
    exact (stateOp_shaped _).acts fun world => .read world _

theorem stackMemFlow_reaches (op : Operation.SMSFOp) (state : State) (args : List Literal)
    (allowed : .StackMemFlow op ∈ staticViolations → state.executionEnv.perm = true) :
    OutputReaches state.world (step (.StackMemFlow op) state args) := by
  cases op
  case POP => exact pop_shaped.acts (fun world => .read world _) state args
  case MLOAD => exact mloadOp_shaped.acts (fun world => .compute world _) state args
  case MSTORE | MSTORE8 =>
    exact (binaryMachineStateOp_shaped _).acts (fun world => .compute world _) state args
  case SLOAD =>
    exact (unaryStateOp_shaped YulGasRules.State.sload).acts
      (fun world => .change fun _ => .step (.addAccessedStorageKey world _)) state args
  case SSTORE =>
    exact (binaryStateOp_shaped YulGasRules.State.sstore).reaches_of_perm (allowed (by decide))
      (fun world perm => .change fun _ => .step (.sstore world perm _ _)) args
  case TLOAD =>
    exact (unaryStateOp_shaped YulGasRules.State.tload).acts
      (fun world => .change fun _ => .refl world) state args
  case TSTORE =>
    exact (binaryStateOp_shaped YulGasRules.State.tstore).reaches_of_perm (allowed (by decide))
      (fun world perm => .change fun _ => .step (.tstore world perm _ _)) args
  case MCOPY =>
    exact (ternaryMachineStateOp_shaped _).acts (fun world => .compute world _) state args
  all_goals
    simp only [step]
    exact (machineStateOp_shaped _).acts (fun world => .read world _) state args

theorem log_reaches (op : Operation.LOp) (state : State) (args : List Literal)
    (allowed : .Log op ∈ staticViolations → state.executionEnv.perm = true) :
    OutputReaches state.world (step (.Log op) state args) := by
  have perm : state.executionEnv.perm = true := by
    apply allowed
    cases op <;> decide
  exact (log_shaped op).reaches_of_perm perm (fun _ permitted => .log permitted _) args

theorem system_reaches (op : Operation.SOp) (state : State) (args : List Literal)
    (allowed : .System op ∈ staticViolations → state.executionEnv.perm = true) :
    OutputReaches state.world (step (.System op) state args) := by
  cases op
  case RETURN => exact returnOp_acts state args
  case REVERT => exact revertOp_acts state args
  case INVALID => exact Reaches.silent fun _ => id
  case SELFDESTRUCT =>
    exact selfdestructOp_shaped.reaches_of_perm (allowed (by decide))
      (fun world perm => .change fun _ => .step (.selfdestruct world perm _)) args
  all_goals exact unmodelledOp_acts state args

/-- Every operation acts by steps of the system, provided that one which needs a
permission has it. -/
theorem step_reaches (prim : PrimOp) (state : State) (args : List Literal)
    (allowed : prim ∈ staticViolations → state.executionEnv.perm = true) :
    OutputReaches state.world (step prim state args) := by
  cases prim with
  | StopArith op => exact stopArith_acts op state args
  | CompBit op => exact compBit_acts op state args
  | Keccak op =>
      cases op with
      | KECCAK256 =>
          exact (binaryMachineStateOp'_shaped MachineState.keccak256).acts
            (fun world => .compute world _) state args
  | Env op => exact env_acts op state args
  | Block op => exact block_acts op state args
  | StackMemFlow op => exact stackMemFlow_reaches op state args allowed
  | Log op => exact log_reaches op state args allowed
  | System op => exact system_reaches op state args allowed

end Step

end YulGasRules.Yul
