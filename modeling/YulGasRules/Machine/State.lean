import YulGasRules.Machine.Bytes
import YulGasRules.Yul.Ast

/-!
# The state of the machine

Accounts, the execution environment and the two halves of the shared state: the
world state and the memory-side machine state.  The records carry the fields
that the Yul instructions read or write.
-/

namespace YulGasRules

/-- A finite map from words to words; absent keys read as zero. -/
abbrev Storage : Type := Finmap fun _ : UInt256 => UInt256

/-- What an account keeps from transaction to transaction. -/
structure PersistentAccountState (τ : OperationType) where
  nonce : UInt256
  balance : UInt256
  storage : Storage
  code : contractCode τ
  deriving Inhabited

/-- The `Account` data. Section 4.1.  `tstorage` is the transient storage. -/
structure Account (τ : OperationType) extends PersistentAccountState τ where
  tstorage : Storage
  deriving Inhabited

namespace Account

/-- Where nothing was stored, there is zero. -/
def lookupStorage {τ : OperationType} (self : Account τ) (k : UInt256) : UInt256 :=
  (self.storage.lookup k).getD ⟨0⟩

/-- Storing zero erases the entry. -/
def updateStorage {τ : OperationType} (self : Account τ) (k v : UInt256) : Account τ :=
  if v == default then { self with storage := self.storage.erase k }
  else { self with storage := self.storage.insert k v }

def lookupTransientStorage {τ : OperationType} (self : Account τ) (k : UInt256) : UInt256 :=
  (self.tstorage.lookup k).getD ⟨0⟩

def updateTransientStorage {τ : OperationType} (self : Account τ) (k v : UInt256) :
    Account τ :=
  if v == default then { self with tstorage := self.tstorage.erase k }
  else { self with tstorage := self.tstorage.insert k v }

end Account

/-- All accounts, by their addresses. -/
abbrev AccountMap (τ : OperationType) : Type := Finmap fun _ : AccountAddress => Account τ

namespace AccountMap

/-- The receiver's account is created if there is none. -/
def increaseBalance (τ : OperationType) (σ : AccountMap τ) (addr : AccountAddress)
    (amount : UInt256) : AccountMap τ :=
  match σ.lookup addr with
  | none => σ.insert addr { (default : Account τ) with balance := amount }
  | some acc => σ.insert addr { acc with balance := acc.balance + amount }

/-- Returns `none` in the case of an overflow below zero. -/
def decreaseBalance (τ : OperationType) (σ : AccountMap τ) (addr : AccountAddress)
    (amount : UInt256) : Option (AccountMap τ) :=
  match σ.lookup addr with
  | none => none
  | some acc =>
      if acc.balance < amount then none
      else some (σ.insert addr { acc with balance := acc.balance - amount })

/-- Returns `none` in the case of an overflow below zero. -/
def transferBalance (τ : OperationType) (σ : AccountMap τ)
    (fromAddr toAddr : AccountAddress) (amount : UInt256) : Option (AccountMap τ) :=
  match decreaseBalance τ σ fromAddr amount with
  | none => none
  | some σ' => some (increaseBalance τ σ' toAddr amount)

end AccountMap

/-! ## Block headers and the blob gas price -/

/-- The header fields that instructions read. Section 4.3. -/
structure BlockHeader where
  beneficiary : AccountAddress
  number : Nat
  gasLimit : Nat
  timestamp : Nat
  prevRandao : UInt256
  baseFeePerGas : Nat
  excessBlobGas : UInt64
  deriving Inhabited

/-- Taylor expansion of `factor * e ^ (numerator / denominator)`, term by term.
A term is at most its predecessor times `numerator / (denominator * i)`, so once
`i` has passed `numerator` the terms decrease. -/
def fakeExponential0 (i output factor numerator denominator : Nat) : Nat → Nat
  | 0 => output / denominator
  | numeratorAccum + 1 =>
      fakeExponential0 (i + 1) (output + (numeratorAccum + 1)) factor numerator
        denominator (((numeratorAccum + 1) * numerator) / (denominator * i))
termination_by numeratorAccum => (numerator + 1 - i, numeratorAccum)
decreasing_by
  by_cases small : i ≤ numerator
  · exact Prod.Lex.left _ _ (by omega)
  · have stable : numerator + 1 - (i + 1) = numerator + 1 - i := by omega
    rw [stable]
    apply Prod.Lex.right _
    rcases Nat.eq_zero_or_pos denominator with zero | positive
    · simp [zero]
    · have large : numerator < denominator * i :=
        lt_of_lt_of_le (not_le.mp small) (Nat.le_mul_of_pos_left i positive)
      rw [Nat.div_lt_iff_lt_mul (by omega)]
      exact Nat.mul_lt_mul_of_pos_left large (Nat.succ_pos numeratorAccum)

/-- The approximation of an exponential that the price of blobs is computed with. -/
def fakeExponential (factor numerator denominator : Nat) : Nat :=
  fakeExponential0 1 0 factor numerator denominator (factor * denominator)

def MIN_BASE_FEE_PER_BLOB_GAS : Nat := 1
def BLOB_BASE_FEE_UPDATE_FRACTION : Nat := 3338477

/-- The price of a unit of blob gas in a block. -/
def BlockHeader.getBlobGasprice (h : BlockHeader) : Nat :=
  fakeExponential MIN_BASE_FEE_PER_BLOB_GAS h.excessBlobGas.toNat
    BLOB_BASE_FEE_UPDATE_FRACTION

/-- A block that has been processed, of which instructions read the hash. -/
structure ProcessedBlock where
  hash : UInt256
  deriving Inhabited

abbrev ProcessedBlocks := Array ProcessedBlock

/-! ## Environment, substate and shared state -/

/-- The execution environment `I`. Section 9.3. -/
structure ExecutionEnv (τ : OperationType) where
  codeOwner : AccountAddress
  sender : AccountAddress
  source : AccountAddress
  weiValue : UInt256
  calldata : ByteArray
  code : contractCode τ
  gasPrice : Nat
  header : BlockHeader
  depth : Nat
  perm : Bool
  blobVersionedHashes : List ByteArray
  deriving Inhabited

def prevRandao {τ : OperationType} (e : ExecutionEnv τ) : UInt256 := e.header.prevRandao

def basefee {τ : OperationType} (e : ExecutionEnv τ) : UInt256 :=
  .ofNat e.header.baseFeePerGas

def ExecutionEnv.getBlobGasprice {τ : OperationType} (e : ExecutionEnv τ) : UInt256 :=
  .ofNat e.header.getBlobGasprice

/-- The versioned hash of a blob of the transaction, or zero. -/
def blobhash {τ : OperationType} (e : ExecutionEnv τ) (i : UInt256) : UInt256 :=
  e.blobVersionedHashes[i.toNat]?.elim ⟨0⟩ fun bytes =>
    .ofNat (fromByteArrayBigEndian bytes)

/-- What a contract has logged. -/
structure LogEntry where
  address : AccountAddress
  topics : Array UInt256
  data : ByteArray

/-- The `Substate` `A`. Section 6.1. -/
structure Substate where
  selfDestructSet : Finset AccountAddress
  refundBalance : UInt256
  accessedAccounts : Finset AccountAddress
  accessedStorageKeys : Finset (AccountAddress × UInt256)
  logSeries : Array LogEntry
  deriving Inhabited

namespace Substate

/-- An account counts as accessed from now on. -/
def addAccessedAccount (self : Substate) (addr : AccountAddress) : Substate :=
  { self with accessedAccounts := insert addr self.accessedAccounts }

/-- So does a storage key. -/
def addAccessedStorageKey (self : Substate) (sk : AccountAddress × UInt256) : Substate :=
  { self with accessedStorageKeys := insert sk self.accessedStorageKeys }

end Substate

/-- The world state. Section 9.3.  `σ₀` is the account map at the start of the
transaction. -/
structure State (τ : OperationType) where
  accountMap : AccountMap τ
  σ₀ : AccountMap .EVM
  substate : Substate
  executionEnv : ExecutionEnv τ
  blocks : ProcessedBlocks
  deriving Inhabited

def State.blockHashes {τ : OperationType} (self : State τ) : Array UInt256 :=
  self.blocks.map ProcessedBlock.hash

/-- The machine state `μ`. Section 9.4.1. -/
structure MachineState where
  gasAvailable : UInt256
  activeWords : UInt256
  memory : ByteArray
  returnData : ByteArray
  H_return : ByteArray
  deriving Inhabited

structure SharedState (τ : OperationType) extends State τ, MachineState
  deriving Inhabited

end YulGasRules
