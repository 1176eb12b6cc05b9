import Mathlib.Logic.Function.Basic
import YulGasRules.Machine.Memory
import YulGasRules.Yul.Totality

/-!
# The stores of the running contract

The running contract has three stores: memory, storage and transient storage.  On paper
these are functions that do not know of each other, and an instruction reads one of them or
changes it at one place.  The machine keeps them in a byte array, in two finite maps that
leave out zeros, and in the count of active words.  Whatever sequence of instructions runs,
it reads what the stores on paper say.  Logs are stores that no instruction reads.
-/

namespace YulGasRules

open Collections

/-! ## Storage of an account -/

namespace Account

variable {τ : OperationType} (account : Account τ) (k v : UInt256)

/-- Zeros are not kept, and absent keys read as zero. -/
theorem getD_lookup_update (map : Storage) :
    (fun key => ((if v == default then map.erase k else map.insert k v).lookup key).getD ⟨0⟩) =
      Function.update (fun key => (map.lookup key).getD ⟨0⟩) k v := by
  funext key
  rw [Function.update_apply]
  by_cases same : key = k
  · rw [if_pos same, same]
    split
    · rename_i zero
      rw [Finmap.lookup_erase, eq_of_beq zero]
      rfl
    · rw [Finmap.lookup_insert, Option.getD_some]
  · rw [if_neg same]
    split
    · rw [Finmap.lookup_erase_ne same]
    · rw [Finmap.lookup_insert_of_ne map same]

/-- Storage is a function that is updated, although zero is not stored. -/
theorem lookupStorage_updateStorage :
    (account.updateStorage k v).lookupStorage = Function.update account.lookupStorage k v := by
  rw [updateStorage]
  refine Eq.trans ?_ (getD_lookup_update k v account.storage)
  split <;> rfl

theorem lookupTransientStorage_updateTransientStorage :
    (account.updateTransientStorage k v).lookupTransientStorage =
      Function.update account.lookupTransientStorage k v := by
  rw [updateTransientStorage]
  refine Eq.trans ?_ (getD_lookup_update k v account.tstorage)
  split <;> rfl

/-- The two storages do not mix. -/
theorem lookupTransientStorage_updateStorage :
    (account.updateStorage k v).lookupTransientStorage = account.lookupTransientStorage := by
  rw [updateStorage]
  split <;> rfl

theorem lookupStorage_updateTransientStorage :
    (account.updateTransientStorage k v).lookupStorage = account.lookupStorage := by
  rw [updateTransientStorage]
  split <;> rfl

end Account

namespace Yul

/-! ## Stores on paper -/

/-- What the running contract has stored. -/
structure Stores where
  memory : Memory
  storage : UInt256 → UInt256
  transient : UInt256 → UInt256
  logs : Array LogEntry

/-- What the running contract has been given: its code, its environment, and the data that
the last call has returned.  It is free to write. -/
structure Inputs where
  code : YulContract
  env : ExecutionEnv .Yul
  permitted : env.perm = true
  returned : ByteArray

/-- Instructions that read the inputs as they are. -/
def Inputs.read (inputs : Inputs) : PrimOp → Option UInt256
  | .ADDRESS => some (.ofNat inputs.env.codeOwner.val)
  | .ORIGIN => some (.ofNat inputs.env.sender.val)
  | .CALLER => some (.ofNat inputs.env.source.val)
  | .CALLVALUE => some inputs.env.weiValue
  | .CALLDATASIZE => some (.ofNat inputs.env.calldata.size)
  | .GASPRICE => some (.ofNat inputs.env.gasPrice)
  | .RETURNDATASIZE => some (.ofNat inputs.returned.size)
  | .COINBASE => some (.ofNat inputs.env.header.beneficiary.val)
  | .TIMESTAMP => some (.ofNat inputs.env.header.timestamp)
  | .NUMBER => some (.ofNat inputs.env.header.number)
  | .PREVRANDAO => some inputs.env.header.prevRandao
  | .GASLIMIT => some (.ofNat inputs.env.header.gasLimit)
  | .CHAINID => some (.ofNat chainId)
  | .BASEFEE => some (.ofNat inputs.env.header.baseFeePerGas)
  | _ => none

/-- Log bytes of memory. -/
def Stores.log (inputs : Inputs) (stores : Stores) (p s : UInt256) (topics : Array UInt256) :
    Stores :=
  { stores with
    logs := stores.logs.push
      ⟨inputs.env.codeOwner, topics, sliceOf stores.memory p.toNat s.toNat⟩ }

/-- What an instruction does to the stores, and the word that it reads. -/
def Stores.step [FFI] (inputs : Inputs) (stores : Stores) :
    PrimOp → List Literal → Option (Stores × List Literal)
  | .MLOAD, [p] => some (stores, [stores.memory.load p.toNat])
  | .MSTORE, [p, v] => some ({ stores with memory := stores.memory.store p.toNat v }, [])
  | .MSTORE8, [p, v] => some ({ stores with memory := stores.memory.store8 p.toNat v }, [])
  | .MCOPY, [p, r, s] =>
      some ({ stores with
        memory := stores.memory.copy p.toNat s.toNat stores.memory r.toNat }, [])
  | .CALLDATALOAD, [p] => some (stores, [Memory.load (byteOf inputs.env.calldata) p.toNat])
  | .CALLDATACOPY, [p, r, s] =>
      some ({ stores with
        memory := stores.memory.copy p.toNat s.toNat (byteOf inputs.env.calldata) r.toNat }, [])
  | .RETURNDATACOPY, [p, r, s] =>
      some ({ stores with
        memory := stores.memory.copy p.toNat s.toNat (byteOf inputs.returned) r.toNat }, [])
  | .KECCAK256, [p, s] =>
      some (stores, [.ofNat (fromByteArrayBigEndian
        (FFI.KEC (sliceOf stores.memory p.toNat s.toNat)))])
  | .SLOAD, [k] => some (stores, [stores.storage k])
  | .SSTORE, [k, v] => some ({ stores with storage := Function.update stores.storage k v }, [])
  | .TLOAD, [k] => some (stores, [stores.transient k])
  | .TSTORE, [k, v] =>
      some ({ stores with transient := Function.update stores.transient k v }, [])
  | .LOG0, [p, s] => some (stores.log inputs p s #[], [])
  | .LOG1, [p, s, a] => some (stores.log inputs p s #[a], [])
  | .LOG2, [p, s, a, b] => some (stores.log inputs p s #[a, b], [])
  | .LOG3, [p, s, a, b, c] => some (stores.log inputs p s #[a, b, c], [])
  | .LOG4, [p, s, a, b, c, d] => some (stores.log inputs p s #[a, b, c, d], [])
  | .POP, [_] => some (stores, [])
  | prim, [] => (inputs.read prim).map fun val => (stores, [val])
  | _, _ => none

/-- Where the access of an instruction to memory ends. -/
def PrimOp.reach : PrimOp → List Literal → Nat
  | .MLOAD, [p] | .MSTORE, [p, _] => YulGasRules.reach p.toNat 32
  | .MSTORE8, [p, _] => YulGasRules.reach p.toNat 1
  | .MCOPY, [p, r, s] => YulGasRules.reach (max p.toNat r.toNat) s.toNat
  | .CALLDATACOPY, [p, _, s] | .RETURNDATACOPY, [p, _, s] => YulGasRules.reach p.toNat s.toNat
  | .KECCAK256, [p, s] | .RETURN, [p, s] => YulGasRules.reach p.toNat s.toNat
  | .LOG0, [p, s] | .LOG1, [p, s, _] | .LOG2, [p, s, _, _] | .LOG3, [p, s, _, _, _]
  | .LOG4, [p, s, _, _, _, _] => YulGasRules.reach p.toNat s.toNat
  | _, _ => 0

/-! ## Stores of the machine -/

/-- The machine's stores stand for the ones on paper, and the running contract has an
account. -/
structure Stands (shared : SharedState .Yul) (inputs : Inputs) (stores : Stores) : Prop where
  memory : shared.toMachineState.Holds stores.memory
  env : shared.executionEnv = inputs.env
  returned : shared.returnData = inputs.returned
  account : ∃ account, shared.accountMap.lookup shared.executionEnv.codeOwner = some account ∧
    account.code = inputs.code ∧ account.lookupStorage = stores.storage ∧
    account.lookupTransientStorage = stores.transient
  logs : shared.substate.logSeries = stores.logs

namespace Stands

variable {shared : SharedState .Yul} {inputs : Inputs} {stores : Stores}

/-- The machine state may change to one that stands for other memory. -/
theorem of_machine (stands : Stands shared inputs stores) {machine : MachineState}
    {memory : Memory} (holds : machine.Holds memory)
    (same : machine.returnData = shared.returnData) :
    Stands { shared with toMachineState := machine } inputs { stores with memory } where
  memory := holds
  env := stands.env
  returned := same.trans stands.returned
  account := stands.account
  logs := stands.logs

/-- The world may change in the storages of the contract. -/
theorem of_state (stands : Stands shared inputs stores) {state : YulGasRules.State .Yul}
    {storage transient : UInt256 → UInt256} (same : state.executionEnv = shared.executionEnv)
    (logged : state.substate.logSeries = shared.substate.logSeries)
    (account : ∃ account,
      state.accountMap.lookup shared.executionEnv.codeOwner = some account ∧
        account.code = inputs.code ∧ account.lookupStorage = storage ∧
        account.lookupTransientStorage = transient) :
    Stands { shared with toState := state } inputs { stores with storage, transient } where
  memory := stands.memory
  env := same.trans stands.env
  returned := stands.returned
  account := same ▸ account
  logs := logged.trans stands.logs

theorem running (stands : Stands shared inputs stores) (varstore : VarStore) :
    (State.Ok shared varstore).runningCode = some inputs.code := by
  rcases stands.account with ⟨account, present, holds, _⟩
  rw [runningCode_eq_lookup, ← holds]
  exact congrArg (Option.map (·.code)) present

/-- A contract that stands for stores may write. -/
theorem allowed (stands : Stands shared inputs stores) (varstore : VarStore) (prim : PrimOp) :
    ¬(¬(State.Ok shared varstore).executionEnv.perm ∧ prim ∈ staticViolations) :=
  fun guarded => guarded.1 ((congrArg ExecutionEnv.perm stands.env).trans inputs.permitted)

/-- What is loaded is what the store holds. -/
theorem sload_eq (stands : Stands shared inputs stores) (k : UInt256) :
    (shared.toState.sload k).2 = stores.storage k := by
  rcases stands.account with ⟨account, present, _, stored, _⟩
  simp only [State.sload, State.lookupAccount, present, Option.elim_some, stored]

theorem tload_eq (stands : Stands shared inputs stores) (k : UInt256) :
    (shared.toState.tload k).2 = stores.transient k := by
  rcases stands.account with ⟨account, present, _, _, transient⟩
  simp only [State.tload, State.lookupAccount, present, Option.elim_some, transient]

/-- Storing updates the store. -/
theorem sstore (stands : Stands shared inputs stores) (k v : UInt256) :
    Stands { shared with toState := shared.toState.sstore k v } inputs
      { stores with storage := Function.update stores.storage k v } := by
  rcases stands.account with ⟨account, present, holds, stored, transient⟩
  have written : (shared.toState.sstore k v).accountMap =
      shared.accountMap.insert shared.executionEnv.codeOwner (account.updateStorage k v) := by
    simp only [State.sstore, State.lookupAccount, present, Option.elim_some]
    rfl
  have same : (shared.toState.sstore k v).executionEnv = shared.executionEnv := by
    simp only [State.sstore, State.lookupAccount, present, Option.elim_some]
    rfl
  have logged : (shared.toState.sstore k v).substate.logSeries = shared.substate.logSeries := by
    simp only [State.sstore, State.lookupAccount, present, Option.elim_some]
    rfl
  refine stands.of_state same logged ⟨account.updateStorage k v, ?_, ?_, ?_, ?_⟩
  · rw [written, Finmap.lookup_insert]
  · rw [State.code_updateStorage, holds]
  · rw [account.lookupStorage_updateStorage, stored]
  · rw [account.lookupTransientStorage_updateStorage, transient]

theorem tstore (stands : Stands shared inputs stores) (k v : UInt256) :
    Stands { shared with toState := shared.toState.tstore k v } inputs
      { stores with transient := Function.update stores.transient k v } := by
  rcases stands.account with ⟨account, present, holds, stored, transient⟩
  have written : shared.toState.tstore k v =
      shared.toState.updateAccount shared.executionEnv.codeOwner
        (account.updateTransientStorage k v) := by
    simp only [State.tstore, State.lookupAccount, present, Option.elim_some]
  rw [written]
  refine stands.of_state rfl rfl ⟨account.updateTransientStorage k v, ?_, ?_, ?_, ?_⟩
  · exact Finmap.lookup_insert _
  · rw [State.code_updateTransientStorage, holds]
  · rw [account.lookupStorage_updateTransientStorage, stored]
  · rw [account.lookupTransientStorage_updateTransientStorage, transient]

/-- Logs do not change memory. -/
theorem log (stands : Stands shared inputs stores) {p s : UInt256}
    (near : reach p.toNat s.toNat < 2 ^ 64) (topics : Array UInt256) :
    Stands (shared.logOp p s topics) inputs (stores.log inputs p s topics) where
  memory := stands.memory.touch near rfl rfl
  env := stands.env
  returned := stands.returned
  account := stands.account
  logs := by
    have data : shared.memory.readWithPadding p.toNat s.toNat =
        sliceOf (byteOf shared.memory) p.toNat s.toNat :=
      readWithPadding_eq_sliceOf shared.memory (lt_of_reach_lt near)
    rw [Stores.log, ← stands.logs, ← stands.env, ← stands.memory.bytes, ← data]
    rfl

variable [FFI] {prim : PrimOp} {args : List Literal} {stores' : Stores} {vals : List Literal}

/-- Inputs are what the machine reads. -/
theorem step_read (stands : Stands shared inputs stores) (varstore : VarStore) {val : UInt256}
    (reads : inputs.read prim = some val) :
    Yul.step prim (.Ok shared varstore) [] = .ok (.Ok shared varstore, some val) := by
  simp only [Inputs.read, ← stands.env, ← stands.returned] at reads
  split at reads <;> cases reads <;> rfl

/-- One instruction. -/
theorem step (stands : Stands shared inputs stores) (varstore : VarStore)
    (steps : stores.step inputs prim args = some (stores', vals))
    (near : prim.reach args < 2 ^ 64) :
    ∃ shared' result,
      Yul.step prim (.Ok shared varstore) args = .ok (.Ok shared' varstore, result) ∧
      result.toList = vals ∧ Stands shared' inputs stores' := by
  simp only [Stores.step] at steps
  split at steps
  · cases steps
    obtain ⟨value, holds⟩ := stands.memory.mload near
    refine ⟨_, _, rfl, congrArg (fun v => [v]) value, stands.of_machine holds rfl⟩
  · cases steps
    exact ⟨_, _, rfl, rfl, stands.of_machine (stands.memory.mstore near) rfl⟩
  · cases steps
    exact ⟨_, _, rfl, rfl, stands.of_machine (stands.memory.mstore8 near) rfl⟩
  · cases steps
    exact ⟨_, _, rfl, rfl, stands.of_machine (stands.memory.mcopy near) rfl⟩
  · cases steps
    refine ⟨_, _, rfl, ?_, stands⟩
    rw [Memory.load, ← stands.env, ← uInt256OfByteArray_readBytes]
    rfl
  · rename_i p r s
    cases steps
    rw [← stands.env]
    exact ⟨_, _, rfl, rfl, stands.of_machine
      (stands.memory.write shared.executionEnv.calldata r.toNat near (Nat.le_refl _)) rfl⟩
  · cases steps
    rw [← stands.returned]
    exact ⟨_, _, rfl, rfl, stands.of_machine (stands.memory.returndatacopy near) rfl⟩
  · cases steps
    obtain ⟨value, holds⟩ := stands.memory.keccak256 near
    exact ⟨_, _, rfl, congrArg (fun v => [v]) value, stands.of_machine holds rfl⟩
  · cases steps
    exact ⟨_, _, rfl, congrArg (fun v => [v]) (stands.sload_eq _),
      stands.of_state rfl rfl stands.account⟩
  · cases steps
    exact ⟨_, _, rfl, rfl, stands.sstore ..⟩
  · cases steps
    exact ⟨_, _, rfl, congrArg (fun v => [v]) (stands.tload_eq _), stands⟩
  · cases steps
    exact ⟨_, _, rfl, rfl, stands.tstore ..⟩
  iterate 5
    · cases steps
      exact ⟨_, _, rfl, rfl, stands.log near _⟩
  · cases steps
    exact ⟨_, _, rfl, rfl, stands⟩
  · simp only [Option.map_eq_some_iff] at steps
    rcases steps with ⟨val, reads, same⟩
    cases same
    exact ⟨shared, some val, stands.step_read varstore reads, rfl, stands⟩
  · cases steps

end Stands

end Yul

end YulGasRules
