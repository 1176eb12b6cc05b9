import YulGasRules.Machine.State

/-!
# Operations on the machine state

What the instructions do to the memory, the world state and both together.
-/

namespace YulGasRules

/-! ## Memory -/

/-- Copy `len` bytes of `source`, from `sourceAddr` on, to `destAddr` in memory. -/
def writeBytes (source : ByteArray) (sourceAddr : Nat) (self : MachineState)
    (destAddr len : Nat) : MachineState :=
  { self with memory := source.write sourceAddr self.memory destAddr len }

namespace MachineState

/-- Memory expansion: the words active after touching `l` bytes at `f`.
Appendix H, (320). -/
def M (s f l : Nat) : Nat :=
  match l with
  | 0 => s
  | l + 1 => max s ((f + (l + 1) + 31) / 32)

/-- Write the 32 bytes of a word.  The count of active words is left to the caller. -/
def writeWord (self : MachineState) (addr val : UInt256) : MachineState :=
  writeBytes val.toByteArray 0 self addr.toNat 32

/-- Read the word at an address.  Where the memory does not reach the address, or no
active word does, the value is zero. -/
def lookupMemory (self : MachineState) (addr : UInt256) : UInt256 :=
  if addr.toNat ≥ self.memory.size ∨ addr ≥ self.activeWords * ⟨32⟩ then ⟨0⟩
  else .ofNat (fromByteArrayBigEndian (self.memory.readWithPadding addr.toNat 32))

/-- The number of active bytes, which is a multiple of 32. -/
def msize (self : MachineState) : UInt256 := self.activeWords * ⟨32⟩

/-- Read a word, which expands the memory to hold it. -/
def mload (self : MachineState) (spos : UInt256) : UInt256 × MachineState :=
  let val := self.lookupMemory spos
  (val, { self with activeWords := .ofNat (M self.activeWords.toNat spos.toNat 32) })

/-- Write a word and expand the memory to hold it. -/
def mstore (self : MachineState) (spos sval : UInt256) : MachineState :=
  let self := self.writeWord spos sval
  { self with activeWords := .ofNat (M self.activeWords.toNat spos.toNat 32) }

/-- Write the low byte of a word. -/
def mstore8 (self : MachineState) (spos sval : UInt256) : MachineState :=
  let self := writeBytes ⟨#[UInt8.ofNat sval.toNat]⟩ 0 self spos.toNat 1
  { self with activeWords := .ofNat (M self.activeWords.toNat spos.toNat 1) }

/-- Copy within the memory.  The memory expands to the higher of the two places. -/
def mcopy (self : MachineState) (writeStart readStart s : UInt256) : MachineState :=
  let self := writeBytes self.memory readStart.toNat self writeStart.toNat s.toNat
  { self with
    activeWords := .ofNat
      (M self.activeWords.toNat (max writeStart.toNat readStart.toNat) s.toNat) }

def gas (self : MachineState) : UInt256 := self.gasAvailable

/-- The size of what the last callee returned. -/
def returndatasize (self : MachineState) : UInt256 := .ofNat self.returnData.size

/-- Copy return data into memory.  Bytes that they lack are zeros. -/
def returndatacopy (self : MachineState) (mstart rstart size : UInt256) : MachineState :=
  let self := writeBytes self.returnData rstart.toNat self mstart.toNat size.toNat
  { self with activeWords := .ofNat (M self.activeWords.toNat mstart.toNat size.toNat) }

/-- Set a slice of the memory aside as return data. -/
def evmReturn (self : MachineState) (mstart s : UInt256) : MachineState :=
  { self with
    H_return := self.memory.readWithPadding mstart.toNat s.toNat
    activeWords := .ofNat (M self.activeWords.toNat mstart.toNat s.toNat) }

/-- The same slice for `REVERT`, which touches the memory twice. -/
def evmRevert (self : MachineState) (mstart s : UInt256) : MachineState :=
  let self := self.evmReturn mstart s
  { self with activeWords := .ofNat (M self.activeWords.toNat mstart.toNat s.toNat) }

/-- Hash a slice of the memory.  The hash is a function outside of the source. -/
def keccak256 [FFI] (self : MachineState) (mstart s : UInt256) :
    UInt256 × MachineState :=
  let bytes := self.memory.readWithPadding mstart.toNat s.toNat
  let kec := FFI.KEC bytes
  (.ofNat (fromByteArrayBigEndian kec),
    { self with activeWords := .ofNat (M self.activeWords.toNat mstart.toNat s.toNat) })

end MachineState

/-! ## World state -/

namespace GasConstants

def Gwarmaccess : Nat := 100
def Gsset : Nat := 20000
def Gsreset : Nat := 2900
def Rsclear : Nat := 4800

end GasConstants

/-- The one chain the model runs on. -/
def chainId : Nat := 1

namespace State

variable {τ : OperationType}

/-- Record that an account has been touched in this transaction. -/
def addAccessedAccount (self : State τ) (addr : AccountAddress) : State τ :=
  { self with substate := self.substate.addAccessedAccount addr }

/-- Record that a storage slot has been touched in this transaction. -/
def addAccessedStorageKey (self : State τ) (sk : AccountAddress × UInt256) : State τ :=
  { self with substate := self.substate.addAccessedStorageKey sk }

/-- The account at an address, if there is one. -/
def lookupAccount (self : State τ) (addr : AccountAddress) : Option (Account τ) :=
  self.accountMap.lookup addr

def updateAccount (addr : AccountAddress) (act : Account τ) (self : State τ) : State τ :=
  { self with accountMap := self.accountMap.insert addr act }

def setAccount (self : State τ) (addr : AccountAddress) (acc : Account τ) : State τ :=
  { self with accountMap := self.accountMap.insert addr acc }

/-- The balance of an account, zero if there is none.  The access is recorded. -/
def balance (self : State τ) (k : UInt256) : State τ × UInt256 :=
  let addr := AccountAddress.ofUInt256 k
  (self.addAccessedAccount addr, (self.accountMap.lookup addr).elim ⟨0⟩ (·.balance))

/-- The word of calldata at an offset, padded with zeros. -/
def calldataload (self : State τ) (v : UInt256) : UInt256 :=
  uInt256OfByteArray <| self.executionEnv.calldata.readBytes v.toNat 32

/-- The hash of one of the last 256 blocks, zero for any other. -/
def blockHash (self : State τ) (blockNumber : UInt256) : UInt256 :=
  let v := self.executionEnv.header.number
  if v ≤ blockNumber.toNat || blockNumber.toNat + 256 < v then ⟨0⟩
  else self.blockHashes.getD blockNumber.toNat ⟨0⟩

def coinBase (self : State τ) : AccountAddress := self.executionEnv.header.beneficiary

def timeStamp (self : State τ) : UInt256 := .ofNat self.executionEnv.header.timestamp

def number (self : State τ) : UInt256 := .ofNat self.executionEnv.header.number

def gasLimit (self : State τ) : UInt256 := .ofNat self.executionEnv.header.gasLimit

def chainId (_ : State τ) : UInt256 := .ofNat YulGasRules.chainId

/-- The balance of the running contract.  The access is not recorded. -/
def selfbalance (self : State τ) : UInt256 :=
  (self.accountMap.lookup self.executionEnv.codeOwner).elim ⟨0⟩ (·.balance)

/-- A word of the running contract's storage, zero if it has no account.  The access is
recorded either way. -/
def sload (self : State τ) (spos : UInt256) : State τ × UInt256 :=
  let Iₐ := self.executionEnv.codeOwner
  let v := (self.lookupAccount Iₐ).elim ⟨0⟩ (Account.lookupStorage · spos)
  (self.addAccessedStorageKey (Iₐ, spos), v)

/-- Store a word and adjust the refund balance.  Only an account that exists is
written to. -/
def sstore (self : State τ) (spos sval : UInt256) : State τ :=
  let Iₐ := self.executionEnv.codeOwner
  let σ_Iₐ := ((self.accountMap.lookup Iₐ).getD default).storage
  let v₀ :=
    match self.σ₀.lookup Iₐ with
    | none => ⟨0⟩
    | some acc => (acc.storage.lookup spos).getD ⟨0⟩
  let v := (σ_Iₐ.lookup spos).getD ⟨0⟩
  let v' := sval
  let r_dirtyclear : Int :=
    if v₀ ≠ .ofNat 0 && v = .ofNat 0 then -GasConstants.Rsclear
    else if v₀ ≠ .ofNat 0 && v' = .ofNat 0 then GasConstants.Rsclear
    else 0
  let r_dirtyreset : Int :=
    if v₀ = v' && v₀ = .ofNat 0 then GasConstants.Gsset - GasConstants.Gwarmaccess
    else if v₀ = v' && v₀ ≠ .ofNat 0 then GasConstants.Gsreset - GasConstants.Gwarmaccess
    else 0
  let ΔAᵣ : Int :=
    if v ≠ v' && v₀ = v && v' = .ofNat 0 then GasConstants.Rsclear
    else if v ≠ v' && v₀ ≠ v then r_dirtyclear + r_dirtyreset
    else 0
  let newAᵣ : UInt256 :=
    match ΔAᵣ with
    | .ofNat n => self.substate.refundBalance + .ofNat n
    | .negSucc n => self.substate.refundBalance - .ofNat n - ⟨1⟩
  (self.lookupAccount Iₐ).elim self fun acc =>
    let self' :=
      (self.setAccount Iₐ (acc.updateStorage spos sval)).addAccessedStorageKey (Iₐ, spos)
    { self' with substate.refundBalance := newAᵣ }

/-- A word of transient storage.  No access is recorded. -/
def tload (self : State τ) (spos : UInt256) : State τ × UInt256 :=
  let Iₐ := self.executionEnv.codeOwner
  let v := (self.lookupAccount Iₐ).elim ⟨0⟩ (Account.lookupTransientStorage · spos)
  (self, v)

/-- Write to transient storage, if the running contract has an account. -/
def tstore (self : State τ) (spos sval : UInt256) : State τ :=
  let Iₐ := self.executionEnv.codeOwner
  (self.lookupAccount Iₐ).elim self fun acc =>
    self.updateAccount Iₐ (acc.updateTransientStorage spos sval)

end State

/-! ## Shared state -/

namespace SharedState

variable {τ : OperationType}

/-- Copy calldata into memory, which expands. -/
def calldatacopy (self : SharedState τ) (mstart datastart size : UInt256) :
    SharedState τ :=
  { self with
    memory := self.executionEnv.calldata.write datastart.toNat self.memory
      mstart.toNat size.toNat
    activeWords := .ofNat
      (MachineState.M self.activeWords.toNat mstart.toNat size.toNat) }

/-- Append a log entry with the given topics and a slice of the memory as data. -/
def logOp (μ₀ μ₁ : UInt256) (t : Array UInt256) (sState : SharedState τ) :
    SharedState τ :=
  let Iₐ := sState.executionEnv.codeOwner
  let mem := sState.memory.readWithPadding μ₀.toNat μ₁.toNat
  { sState with
    substate.logSeries := sState.substate.logSeries.push ⟨Iₐ, t, mem⟩
    activeWords := .ofNat (MachineState.M sState.activeWords.toNat μ₀.toNat μ₁.toNat) }

end SharedState

end YulGasRules
