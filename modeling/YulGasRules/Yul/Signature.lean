import YulGasRules.Fuel.Judgment
import YulGasRules.Yul.Running
import YulGasRules.Yul.Shapes

/-!
# Signatures of the primitive operations

Whether an operation ends normally depends on the number of its arguments and on
nothing else, and an operation that ends normally keeps the running code.  Operations
that lack a semantics are the exception: they succeed, but lose the state.
-/

namespace YulGasRules.Yul

open Fuel

/-! ## Signatures -/

/-- The signature of an operation as `step` runs it. -/
def signature : PrimOp → Signature
  | .STOP | .RETURN | .REVERT | .INVALID | .EXTCODESIZE => .never
  | .ISZERO | .NOT | .BALANCE | .CALLDATALOAD | .BLOCKHASH | .BLOBHASH => .exactly 1
  | .MLOAD | .SLOAD | .TLOAD | .SELFDESTRUCT => .exactly 1
  | .ADD | .MUL | .SUB | .DIV | .SDIV | .MOD | .SMOD | .EXP | .SIGNEXTEND => .exactly 2
  | .LT | .GT | .SLT | .SGT | .EQ | .AND | .OR | .XOR | .BYTE | .SHL | .SHR | .SAR =>
      .exactly 2
  | .KECCAK256 | .MSTORE | .MSTORE8 | .SSTORE | .TSTORE => .exactly 2
  | .ADDMOD | .MULMOD | .CALLDATACOPY | .RETURNDATACOPY | .MCOPY => .exactly 3
  | _ => .any

/-- The operations that run another contract; the interpreter treats them itself. -/
def contractCalls : List PrimOp := [.CALL, .STATICCALL, .CALLCODE, .DELEGATECALL]

/-- The operations that `step` has no semantics for. -/
def unmodelled : List PrimOp :=
  [.CODESIZE, .CODECOPY, .EXTCODECOPY, .EXTCODEHASH, .CREATE, .CREATE2] ++ contractCalls

/-- The operations that never end normally. -/
def halting : List PrimOp := [.STOP, .RETURN, .REVERT, .INVALID, .EXTCODESIZE]

/-- An operation without a semantics succeeds at every argument count. -/
theorem signature_of_unmodelled {prim : PrimOp} (lacking : prim ∈ unmodelled) :
    signature prim = .any := by
  simp only [unmodelled, contractCalls, List.cons_append, List.nil_append, List.mem_cons,
    List.not_mem_nil, or_false] at lacking
  rcases lacking with rfl | rfl | rfl | rfl | rfl | rfl | rfl | rfl | rfl | rfl <;> rfl

/-! ## Conformance -/

/-- An operation ends normally exactly at the argument counts of its signature,
whatever the state, and then keeps the running code. -/
def Transformer.Conforms (transformer : Transformer) (signature : Signature) : Prop :=
  ∀ state args, Ends
    (fun output => signature.allows args.length = true ∧
      output.1.runningCode = state.runningCode)
    (fun _ => signature.allows args.length = false)
    (transformer state args)

/-- The action leaves the code of the running contract alone. -/
def Action.KeepsCode (act : Action) : Prop :=
  ∀ shared args, (act shared args).1.toState.runningCode = shared.toState.runningCode

/-- An operation of a shape conforms to its signature if its action keeps the running
code. -/
theorem Transformer.Shaped.conforms {transformer : Transformer} {signature : Signature}
    {act : Action} (shaped : transformer.Shaped signature act) (keeps : act.KeepsCode) :
    transformer.Conforms signature := by
  intro state args
  rw [shaped]
  split
  · rename_i allowed
    refine ⟨allowed, runningCode_setSharedState state ?_⟩
    exact (keeps _ args).trans (runningCode_toSharedState state)
  · rename_i refused
    exact Bool.eq_false_iff.mpr refused

namespace Action.KeepsCode

/-- Reading changes nothing. -/
theorem read (value : SharedState .Yul → List Literal → Option Literal) :
    (Action.read value).KeepsCode := fun _ _ => rfl

/-- The machine state holds no code. -/
theorem compute (op : MachineState → List Literal → MachineState × Option Literal) :
    (Action.compute op).KeepsCode := fun _ _ => rfl

/-- A change of the world keeps the running code if it keeps the account's. -/
theorem change {op : World → List Literal → World × Option Literal}
    (same : ∀ world args, (op world args).1.runningCode = world.runningCode) :
    (Action.change op).KeepsCode :=
  fun shared args => same shared.toState args

/-- Logs hold no code. -/
theorem log (count : Nat) : (Action.log count).KeepsCode := by
  intro shared args
  simp only [Action.log]
  split
  · split <;> rfl
  · rfl

end Action.KeepsCode

/-- The account that destroys itself keeps its code until the transaction ends. -/
theorem runningCode_selfdestruct (world : World) (r : AccountAddress) :
    (world.selfdestruct r).runningCode = world.runningCode := by
  simp only [World.selfdestruct, YulGasRules.State.runningCode, selfdestructAccountMap]
  split
  · rfl
  · rename_i σ_Iₐ present
    rw [YulGasRules.State.lookupAccount] at present
    rw [present]
    split
    · split
      · rw [present]
      · simp only [Finmap.lookup_insert, Option.map_some]
    · split <;> simp only [Finmap.lookup_insert, Option.map_some]

/-! ### All operations -/

section Step

variable [FFI]

/-- All operations without a semantics are the same. -/
theorem step_of_unmodelled {prim : PrimOp} (lacking : prim ∈ unmodelled) :
    step prim = unmodelledOp := by
  simp only [unmodelled, contractCalls, List.cons_append, List.nil_append, List.mem_cons,
    List.not_mem_nil, or_false] at lacking
  rcases lacking with rfl | rfl | rfl | rfl | rfl | rfl | rfl | rfl | rfl | rfl <;> rfl

/-- The operation has a shape, and its action leaves the running code alone. -/
def HasShape (prim : PrimOp) : Prop :=
  ∃ act : Action, act.KeepsCode ∧ (step prim).Shaped (signature prim) act

/-- Arithmetic reads its operands. -/
theorem stopArith_hasShape (op : Operation.SAOp) (ends : .StopArith op ∉ halting) :
    HasShape (.StopArith op) := by
  cases op
  case STOP => exact absurd (by decide) ends
  case ADDMOD | MULMOD => exact ⟨_, .read _, execTriOp_shaped _⟩
  all_goals exact ⟨_, .read _, execBinOp_shaped _⟩

/-- So do comparisons and operations on bits. -/
theorem compBit_hasShape (op : Operation.CBLOp) : HasShape (.CompBit op) := by
  cases op
  case ISZERO | NOT => exact ⟨_, .read _, execUnOp_shaped _⟩
  all_goals exact ⟨_, .read _, execBinOp_shaped _⟩

/-- The environment is read, or copied from into memory. -/
theorem env_hasShape (op : Operation.EOp) (modelled : .Env op ∉ unmodelled)
    (ends : .Env op ∉ halting) : HasShape (.Env op) := by
  cases op
  case BALANCE =>
    exact ⟨_, .change fun _ _ => rfl, unaryStateOp_shaped YulGasRules.State.balance⟩
  case CALLDATALOAD =>
    exact ⟨_, .change fun _ _ => rfl,
      unaryStateOp_shaped fun world a => (world, world.calldataload a)⟩
  case CALLDATACOPY =>
    exact ⟨_, fun _ _ => rfl, ternaryCopyOp_shaped SharedState.calldatacopy⟩
  case RETURNDATACOPY => exact ⟨_, .compute _, returndatacopyOp_shaped⟩
  case RETURNDATASIZE => exact ⟨_, .read _, machineStateOp_shaped MachineState.returndatasize⟩
  case EXTCODESIZE => exact absurd (by decide) ends
  case CODESIZE | CODECOPY | EXTCODECOPY | EXTCODEHASH => exact absurd (by decide) modelled
  all_goals
    simp only [HasShape, step]
    exact ⟨_, .read _, executionEnvOp_shaped _⟩

/-- The block is read. -/
theorem block_hasShape (op : Operation.BOp) : HasShape (.Block op) := by
  cases op
  case BLOCKHASH =>
    exact ⟨_, .change fun _ _ => rfl,
      unaryStateOp_shaped fun world a => (world, world.blockHash a)⟩
  case BLOBHASH => exact ⟨_, .read _, unaryExecutionEnvOp_shaped _⟩
  case PREVRANDAO | BASEFEE | BLOBBASEFEE =>
    simp only [HasShape, step]
    exact ⟨_, .read _, executionEnvOp_shaped _⟩
  all_goals
    simp only [HasShape, step]
    exact ⟨_, .read _, stateOp_shaped _⟩

/-- Memory and storage are read and written. -/
theorem stackMemFlow_hasShape (op : Operation.SMSFOp) : HasShape (.StackMemFlow op) := by
  cases op
  case POP => exact ⟨_, .read _, pop_shaped⟩
  case MLOAD => exact ⟨_, .compute _, mloadOp_shaped⟩
  case MSTORE | MSTORE8 => exact ⟨_, .compute _, binaryMachineStateOp_shaped _⟩
  case SLOAD => exact ⟨_, .change fun _ _ => rfl, unaryStateOp_shaped YulGasRules.State.sload⟩
  case TLOAD => exact ⟨_, .change fun _ _ => rfl, unaryStateOp_shaped YulGasRules.State.tload⟩
  case SSTORE =>
    exact ⟨_, .change fun world _ => world.runningCode_sstore _ _, binaryStateOp_shaped _⟩
  case TSTORE =>
    exact ⟨_, .change fun world _ => world.runningCode_tstore _ _, binaryStateOp_shaped _⟩
  case MCOPY => exact ⟨_, .compute _, ternaryMachineStateOp_shaped _⟩
  all_goals
    simp only [HasShape, step]
    exact ⟨_, .read _, machineStateOp_shaped _⟩

theorem log_hasShape (op : Operation.LOp) : HasShape (.Log op) := by
  have shaped := log_shaped op
  cases op <;> exact ⟨_, .log _, shaped⟩

/-- Of the system operations with a semantics, only `SELFDESTRUCT` ends normally. -/
theorem system_hasShape (op : Operation.SOp) (modelled : .System op ∉ unmodelled)
    (ends : .System op ∉ halting) : HasShape (.System op) := by
  cases op
  case SELFDESTRUCT =>
    exact ⟨_, .change fun world _ => runningCode_selfdestruct world _, selfdestructOp_shaped⟩
  case RETURN | REVERT | INVALID => exact absurd (by decide) ends
  all_goals exact absurd (by decide) modelled

/-- Every operation that has a semantics and may end normally has a shape. -/
theorem step_hasShape (prim : PrimOp) (modelled : prim ∉ unmodelled) (ends : prim ∉ halting) :
    HasShape prim := by
  cases prim with
  | StopArith op => exact stopArith_hasShape op ends
  | CompBit op => exact compBit_hasShape op
  | Keccak op =>
      cases op with
      | KECCAK256 => exact ⟨_, .compute _, binaryMachineStateOp'_shaped MachineState.keccak256⟩
  | Env op => exact env_hasShape op modelled ends
  | Block op => exact block_hasShape op
  | StackMemFlow op => exact stackMemFlow_hasShape op
  | Log op => exact log_hasShape op
  | System op => exact system_hasShape op modelled ends

/-- A halt is no normal end, at any argument count. -/
theorem halting_conforms {prim : PrimOp} (halts : prim ∈ halting) :
    (step prim).Conforms (signature prim) := by
  simp only [halting, List.mem_cons, List.not_mem_nil, or_false] at halts
  intro state args
  rcases halts with rfl | rfl | rfl | rfl | rfl
  · rfl
  · simp only [step, returnOp_eq]
    split <;> rfl
  · simp only [step, revertOp_eq]
    split <;> rfl
  · rfl
  · rfl

/-- Every operation that has a semantics conforms to its signature. -/
theorem step_conforms (prim : PrimOp) (modelled : prim ∉ unmodelled) :
    (step prim).Conforms (signature prim) := by
  by_cases halts : prim ∈ halting
  · exact halting_conforms halts
  · rcases step_hasShape prim modelled halts with ⟨act, keeps, shaped⟩
    exact shaped.conforms keeps

end Step

end YulGasRules.Yul
