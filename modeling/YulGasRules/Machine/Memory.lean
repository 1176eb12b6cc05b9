import YulGasRules.Machine.Encoding
import YulGasRules.Machine.Ops

/-!
# The memory of the machine

On paper memory is a byte at every place, zero to begin with, and the instructions load and
store words in it.  The machine keeps a byte array that grows with its writes, and counts
the words that are active.  As long as no access reaches `2^64`, the array stands for the
memory on paper, and a load does not notice where the array or the active words end.
-/

namespace YulGasRules

open Collections

/-! ## Memory on paper -/

/-- Memory without its length, with zeros where nothing was written. -/
abbrev Memory := Nat → UInt8

namespace Memory

variable (memory : Memory) (place : Nat) (v : UInt256)

/-- The word at a place. -/
def load : UInt256 := .ofNat (numberAt memory place 32)

/-- A word is written into the 32 bytes from a place on. -/
def store : Memory := overlay memory place 32 (bigEndian 32 v.toNat)

/-- The low byte of a word is written. -/
def store8 : Memory := overlay memory place 1 fun _ => UInt8.ofNat v.toNat

/-- Copy `length` bytes of another memory. -/
def copy (place length : Nat) (source : Memory) (start : Nat) : Memory :=
  overlay memory place length fun offset => source (start + offset)

/-- What was stored is loaded. -/
theorem load_store : (memory.store place v).load place = v := by
  have digits : numberAt (memory.store place v) place 32 =
      numberAt (bigEndian 32 v.toNat) 0 32 := by
    apply numberAt_congr
    intro offset inside
    rw [store, overlay_of_inside offset inside, Nat.zero_add]
  rw [load, digits, numberAt_bigEndian]
  exact (UInt256.eq_wrap_toNat v).symm

/-- A load beside a store reads what was there. -/
theorem load_store_of_disjoint {other : Nat}
    (disjoint : other + 32 ≤ place ∨ place + 32 ≤ other) :
    (memory.store place v).load other = memory.load other := by
  have same : numberAt (memory.store place v) other 32 = numberAt memory other 32 := by
    apply numberAt_congr
    intro offset inside
    exact overlay_of_outside (by omega)
  rw [load, same, load]

end Memory

/-! ## The byte array and the active words -/

namespace MachineState

/-- The count of active words stays within a bound that the access keeps to. -/
theorem M_le {s f l bound : Nat} (active : s ≤ bound) (near : reach f l ≤ 32 * bound) :
    M s f l ≤ bound := by
  cases l with
  | zero => exact active
  | succ l =>
      rw [reach, if_neg (Nat.succ_ne_zero l)] at near
      rw [M]
      omega

/-- Active words stay active. -/
theorem le_M (s f l : Nat) : s ≤ M s f l := by
  cases l with
  | zero => exact Nat.le_refl s
  | succ l => exact Nat.le_max_left ..

/-- What is accessed becomes active. -/
theorem reach_le_M (s f l : Nat) : reach f l ≤ 32 * M s f l := by
  cases l with
  | zero => exact Nat.zero_le _
  | succ l =>
      rw [reach, if_neg (Nat.succ_ne_zero l), M]
      omega

/-- The machine's memory stands for a memory on paper. -/
structure Holds (machine : MachineState) (memory : Memory) : Prop where
  bytes : byteOf machine.memory = memory
  size_lt : machine.memory.size < 2 ^ 64
  size_le : machine.memory.size ≤ 32 * machine.activeWords.toNat
  active : machine.activeWords.toNat ≤ 2 ^ 59

/-- The machine starts with nothing but zeros. -/
theorem holds_default : (default : MachineState).Holds fun _ => 0 where
  bytes := rfl
  size_lt := by decide
  size_le := by decide
  active := by decide

namespace Holds

variable {machine : MachineState} {memory memory' : Memory} {f l : Nat}

/-- An access may replace the array by one that it covers. -/
theorem access (holds : machine.Holds memory) {array : ByteArray} (same : byteOf array = memory')
    (near : reach f l < 2 ^ 64) (grown : array.size ≤ max machine.memory.size (reach f l)) :
    Holds { machine with
      memory := array
      activeWords := .ofNat (M machine.activeWords.toNat f l) } memory' := by
  have size_lt := holds.size_lt
  have size_le := holds.size_le
  have active : M machine.activeWords.toNat f l ≤ 2 ^ 59 := M_le holds.active (by omega)
  have words : (UInt256.ofNat (M machine.activeWords.toNat f l)).toNat =
      M machine.activeWords.toNat f l := Nat.mod_eq_of_lt (by simp only [UInt256.size]; omega)
  have more := le_M machine.activeWords.toNat f l
  have covers := reach_le_M machine.activeWords.toNat f l
  constructor
  · exact same
  · simp only
    omega
  · simp only [words]
    omega
  · simp only [words]
    exact active

/-- An access may also leave the array alone. -/
theorem touch (holds : machine.Holds memory) (near : reach f l < 2 ^ 64)
    {machine' : MachineState} (array : machine'.memory = machine.memory)
    (words : machine'.activeWords = .ofNat (M machine.activeWords.toNat f l)) :
    machine'.Holds memory := by
  obtain ⟨bytes, size_lt, size_le, active⟩ := holds.access holds.bytes near (Nat.le_max_left ..)
  rw [← array] at bytes size_lt size_le
  rw [← words] at size_le active
  exact ⟨bytes, size_lt, size_le, active⟩

/-- Writes are copies. -/
theorem write (holds : machine.Holds memory) (source : ByteArray) (start : Nat)
    {addr len : Nat} (near : reach f l < 2 ^ 64) (within : reach addr len ≤ reach f l) :
    Holds { machine with
      memory := source.write start machine.memory addr len
      activeWords := .ofNat (M machine.activeWords.toNat f l) }
      (memory.copy addr len (byteOf source) start) := by
  have grown : (source.write start machine.memory addr len).size ≤
      max machine.memory.size (reach addr len) := size_write_le source machine.memory
  apply holds.access _ near (by omega)
  by_cases none : len = 0
  · rw [none, ByteArray.write, if_pos rfl, Memory.copy, overlay_zero, holds.bytes]
  · rw [reach, if_neg none] at within
    rw [byteOf_write source machine.memory (by omega) holds.size_lt, holds.bytes]
    rfl

variable {p v s : UInt256}

/-- The memory looked up is the word that stands there. -/
theorem lookupMemory_eq (holds : machine.Holds memory) :
    machine.lookupMemory p = memory.load p.toNat := by
  have size_le := holds.size_le
  have active := holds.active
  have words : (machine.activeWords * ⟨32⟩).toNat = 32 * machine.activeWords.toNat := by
    change machine.activeWords.toNat * 32 % UInt256.size = _
    simp only [UInt256.size]
    omega
  have order : p ≥ machine.activeWords * ⟨32⟩ ↔ 32 * machine.activeWords.toNat ≤ p.toNat := by
    rw [← words]
    exact Iff.rfl
  rw [lookupMemory]
  split
  · rename_i outside
    have past : machine.memory.size ≤ p.toNat :=
      outside.elim id fun inactive => size_le.trans (order.mp inactive)
    have nothing : numberAt memory p.toNat 32 = 0 := by
      apply numberAt_zeros
      intro place further
      rw [← holds.bytes]
      exact byteOf_of_past (past.trans further)
    rw [Memory.load, nothing]
    rfl
  · rw [fromByteArrayBigEndian_readWithPadding _ (by decide), holds.bytes, Memory.load]

/-- A load reads that word, and the memory stands for the same. -/
theorem mload (holds : machine.Holds memory) (near : reach p.toNat 32 < 2 ^ 64) :
    (machine.mload p).1 = memory.load p.toNat ∧ (machine.mload p).2.Holds memory :=
  ⟨holds.lookupMemory_eq, holds.touch near rfl rfl⟩

/-- A store changes what the memory stands for accordingly. -/
theorem mstore (holds : machine.Holds memory) (near : reach p.toNat 32 < 2 ^ 64) :
    (machine.mstore p v).Holds (memory.store p.toNat v) := by
  have digits : memory.copy p.toNat 32 (byteOf v.toByteArray) 0 = memory.store p.toNat v := by
    apply overlay_congr
    intro offset inside
    rw [Nat.zero_add, v.byteOf_toByteArray inside]
  rw [← digits]
  exact holds.write v.toByteArray 0 near (Nat.le_refl _)

theorem mstore8 (holds : machine.Holds memory) (near : reach p.toNat 1 < 2 ^ 64) :
    (machine.mstore8 p v).Holds (memory.store8 p.toNat v) := by
  have byte : memory.copy p.toNat 1 (byteOf ⟨#[UInt8.ofNat v.toNat]⟩) 0 =
      memory.store8 p.toNat v := by
    apply overlay_congr
    intro offset inside
    rw [Nat.lt_one_iff.mp inside]
    rfl
  rw [← byte]
  exact holds.write ⟨#[UInt8.ofNat v.toNat]⟩ 0 near (Nat.le_refl _)

/-- A copy within the memory may overlap itself. -/
theorem mcopy (holds : machine.Holds memory)
    (near : reach (max p.toNat v.toNat) s.toNat < 2 ^ 64) :
    (machine.mcopy p v s).Holds (memory.copy p.toNat s.toNat memory v.toNat) := by
  have within : reach p.toNat s.toNat ≤ reach (max p.toNat v.toNat) s.toNat := by
    rw [reach, reach]
    split <;> omega
  have copied := holds.write machine.memory v.toNat near within
  rw [holds.bytes] at copied
  exact copied

theorem returndatacopy (holds : machine.Holds memory) (near : reach p.toNat s.toNat < 2 ^ 64) :
    (machine.returndatacopy p v s).Holds
      (memory.copy p.toNat s.toNat (byteOf machine.returnData) v.toNat) :=
  holds.write machine.returnData v.toNat near (Nat.le_refl _)

/-- Data to return. -/
theorem evmReturn (holds : machine.Holds memory) (near : reach p.toNat s.toNat < 2 ^ 64) :
    (machine.evmReturn p s).Holds memory ∧
      (machine.evmReturn p s).H_return = sliceOf memory p.toNat s.toNat := by
  constructor
  · exact holds.touch near rfl rfl
  · rw [← holds.bytes, ← readWithPadding_eq_sliceOf machine.memory (lt_of_reach_lt near)]
    rfl

/-- A hash is one of the bytes that stand there. -/
theorem keccak256 [FFI] (holds : machine.Holds memory) (near : reach p.toNat s.toNat < 2 ^ 64) :
    (machine.keccak256 p s).1 =
        .ofNat (fromByteArrayBigEndian (FFI.KEC (sliceOf memory p.toNat s.toNat))) ∧
      (machine.keccak256 p s).2.Holds memory := by
  constructor
  · rw [← holds.bytes, ← readWithPadding_eq_sliceOf machine.memory (lt_of_reach_lt near)]
    rfl
  · exact holds.touch near rfl rfl

end Holds

/-- A word that has been stored is loaded again, and loads beside it do not notice. -/
theorem mload_mstore {machine : MachineState} {memory : Memory} (holds : machine.Holds memory)
    {p : UInt256} (near : reach p.toNat 32 < 2 ^ 64) (v : UInt256) :
    ((machine.mstore p v).mload p).1 = v ∧
      ∀ q : UInt256, q.toNat + 32 ≤ p.toNat ∨ p.toNat + 32 ≤ q.toNat →
        ((machine.mstore p v).mload q).1 = (machine.mload q).1 := by
  have stored : (machine.mstore p v).Holds (memory.store p.toNat v) := holds.mstore near
  constructor
  · calc ((machine.mstore p v).mload p).1
      _ = (memory.store p.toNat v).load p.toNat := stored.lookupMemory_eq
      _ = v := memory.load_store p.toNat v
  · intro q disjoint
    calc ((machine.mstore p v).mload q).1
      _ = (memory.store p.toNat v).load q.toNat := stored.lookupMemory_eq
      _ = memory.load q.toNat := memory.load_store_of_disjoint p.toNat v disjoint
      _ = (machine.mload q).1 := holds.lookupMemory_eq.symm

/-- Seven is stored at 64, and there is still nothing at 96. -/
theorem mload_mstore_fresh :
    (((default : MachineState).mstore ⟨64⟩ ⟨7⟩).mload ⟨64⟩).1 = ⟨7⟩ ∧
      (((default : MachineState).mstore ⟨64⟩ ⟨7⟩).mload ⟨96⟩).1 = ⟨0⟩ := by
  have loads := mload_mstore holds_default (p := ⟨64⟩) (by decide) ⟨7⟩
  exact ⟨loads.1, loads.2 ⟨96⟩ (.inr (by decide))⟩

end MachineState

end YulGasRules
