import Mathlib.Data.UInt

/-!
# Byte arrays as memories

A memory gives a byte at every place.  A byte array is one, with zeros past its end.  The
operations on byte arrays are described by what they do to the bytes, so that no other
reasoning has to look into a slice.

A run of bytes stands for a number, the first byte being the most significant one.
-/

namespace YulGasRules.Collections

/-- The byte at a place, with zeros past the end. -/
def byteOf (bytes : ByteArray) (place : Nat) : UInt8 := bytes.data[place]?.getD 0

/-- Replace the bytes of a span. -/
def overlay {α : Type} (below : Nat → α) (start length : Nat) (above : Nat → α) : Nat → α :=
  fun place =>
    if start ≤ place ∧ place < start + length then above (place - start) else below place

section Overlays

variable {α : Type} {below above : Nat → α} {start length place : Nat}

theorem overlay_of_inside (offset : Nat) (inside : offset < length) :
    overlay below start length above (start + offset) = above offset := by
  rw [overlay, if_pos ⟨Nat.le_add_right .., Nat.add_lt_add_left inside start⟩,
    Nat.add_sub_cancel_left]

theorem overlay_of_outside (outside : place < start ∨ start + length ≤ place) :
    overlay below start length above place = below place :=
  if_neg (by omega)

/-- Only what stands in the written part matters of the source. -/
theorem overlay_congr {above' : Nat → α}
    (same : ∀ offset, offset < length → above offset = above' offset) :
    overlay below start length above = overlay below start length above' := by
  funext place
  rw [overlay, overlay]
  split
  · exact same _ (by omega)
  · rfl

/-- Nothing is written by an empty write. -/
theorem overlay_zero : overlay below start 0 above = below :=
  funext fun _ => if_neg (by omega)

end Overlays

/-! ## Bytes of byte arrays -/

section Bytes

variable (bytes bytes' : ByteArray) {place start stop : Nat}

/-- Past the end there are zeros. -/
theorem byteOf_of_past {bytes : ByteArray} (past : bytes.size ≤ place) :
    byteOf bytes place = 0 := by
  rw [byteOf, Array.getElem?_eq_none past, Option.getD_none]

/-- An array is its size and its bytes. -/
theorem eq_of_byteOf_eq {bytes bytes' : ByteArray} (sizes : bytes.size = bytes'.size)
    (same : ∀ place, place < bytes.size → byteOf bytes place = byteOf bytes' place) :
    bytes = bytes' := by
  apply ByteArray.ext_getElem sizes
  intro place inside inside'
  have byte := same place inside
  rw [byteOf, byteOf, Array.getElem?_eq_getElem inside,
    Array.getElem?_eq_getElem inside'] at byte
  exact byte

/-- The array of `length` bytes from `start` on. -/
def sliceOf (memory : Nat → UInt8) (start length : Nat) : ByteArray :=
  ⟨Array.ofFn fun offset : Fin length => memory (start + offset)⟩

theorem size_sliceOf (memory : Nat → UInt8) (start length : Nat) :
    (sliceOf memory start length).size = length :=
  Array.size_ofFn

theorem byteOf_sliceOf (memory : Nat → UInt8) {length : Nat} (inside : place < length) :
    byteOf (sliceOf memory start length) place = memory (start + place) := by
  rw [byteOf, sliceOf, Array.getElem?_ofFn, dif_pos inside, Option.getD_some]

/-- The second array goes on where the first one ends. -/
theorem byteOf_append : byteOf (bytes ++ bytes') place =
    if place < bytes.size then byteOf bytes place else byteOf bytes' (place - bytes.size) := by
  simp only [byteOf, ByteArray.data_append, Array.getElem?_append, ByteArray.size_data]
  split <;> rfl

theorem byteOf_replicate (length : Nat) : byteOf ⟨Array.replicate length 0⟩ place = 0 := by
  simp only [byteOf, Array.getElem?_replicate]
  split <;> rfl

/-- An extract is a slice, cut off where it stops. -/
theorem byteOf_extract : byteOf (bytes.extract start stop) place =
    if start + place < stop then byteOf bytes (start + place) else 0 := by
  simp only [byteOf, ByteArray.data_extract, Array.getElem?_extract, ByteArray.size_data]
  by_cases inside : start + place < stop
  · rw [if_pos inside]
    by_cases past : bytes.size ≤ start + place
    · rw [if_neg (by omega), Array.getElem?_eq_none past]
    · rw [if_pos (by omega)]
  · rw [if_neg inside, if_neg (by omega), Option.getD_none]

/-- A slice that starts within the target, or at its end, becomes an overlay. -/
theorem byteOf_copySlice {length : Nat} (within : stop ≤ bytes'.size) :
    byteOf (bytes.copySlice start bytes' stop length) =
      overlay (byteOf bytes') stop (min length (bytes.size - start))
        fun offset => byteOf bytes (start + offset) := by
  funext place
  have front : (bytes'.extract 0 stop).size = stop := by
    rw [ByteArray.size_extract]
    omega
  have slice : (bytes.extract start (start + length)).size =
      min length (bytes.size - start) := by
    rw [ByteArray.size_extract]
    omega
  rw [ByteArray.copySlice_eq_append, byteOf_append, byteOf_append, ByteArray.size_append, front,
    slice, byteOf_extract, byteOf_extract, byteOf_extract, ByteArray.size_data,
    ByteArray.size_data, overlay]
  by_cases before : place < stop
  · rw [if_pos (by omega), if_pos before, if_pos (by omega), if_neg (by omega), Nat.zero_add]
  · by_cases inside : place < stop + min length (bytes.size - start)
    · rw [if_pos inside, if_neg before, if_pos (by omega), if_pos (by omega)]
    · have back : stop + min length (bytes.size - start) +
          (place - (stop + min length (bytes.size - start))) = place := by omega
      rw [if_neg inside, if_neg (by omega : ¬(stop ≤ place ∧ _)), back]
      by_cases past : bytes'.size ≤ place
      · rw [if_neg (by omega), byteOf_of_past past]
      · rw [if_pos (by omega)]

/-- A copy grows the array at most to where it ends. -/
theorem size_copySlice_le (length : Nat) :
    (bytes.copySlice start bytes' stop length).size ≤ max bytes'.size (stop + length) := by
  rw [ByteArray.copySlice_eq_append, ByteArray.size_append, ByteArray.size_append,
    ByteArray.size_extract, ByteArray.size_extract, ByteArray.size_extract, ByteArray.size_data,
    ByteArray.size_data]
  omega

end Bytes

/-! ## Numbers in memories -/

/-- The number that `length` bytes from `start` on stand for. -/
def numberAt (memory : Nat → UInt8) (start : Nat) : Nat → Nat
  | 0 => 0
  | length + 1 => numberAt memory start length * 2 ^ 8 + (memory (start + length)).toNat

/-- The bytes that stand for a number, of which they keep what fits. -/
def bigEndian (length n : Nat) : Nat → UInt8 :=
  fun place => UInt8.ofNat (n / 2 ^ (8 * (length - 1 - place)))

section Numbers

variable {memory memory' : Nat → UInt8} {start start' length : Nat}

/-- A number depends on its digits alone. -/
theorem numberAt_congr
    (same : ∀ offset, offset < length → memory (start + offset) = memory' (start' + offset)) :
    numberAt memory start length = numberAt memory' start' length := by
  induction length with
  | zero => rfl
  | succ length ih =>
      rw [numberAt, numberAt, same length (Nat.lt_succ_self length),
        ih fun offset inside => same offset (Nat.lt_succ_of_lt inside)]

theorem numberAt_zeros (zeros : ∀ place, start ≤ place → memory place = 0) :
    numberAt memory start length = 0 := by
  induction length with
  | zero => rfl
  | succ length ih =>
      rw [numberAt, ih, zeros _ (Nat.le_add_right ..)]
      rfl

/-- The first bytes of a number stand for its quotient. -/
theorem numberAt_bigEndian_part {length n part : Nat} (le : part ≤ length) :
    numberAt (bigEndian length n) 0 part = n / 2 ^ (8 * (length - part)) % 2 ^ (8 * part) := by
  induction part with
  | zero => exact (Nat.mod_one _).symm
  | succ part ih =>
      have quotient : n / 2 ^ (8 * (length - part)) =
          n / 2 ^ (8 * (length - (part + 1))) / 2 ^ 8 := by
        rw [Nat.div_div_eq_div_mul, ← Nat.pow_add]
        congr 2
        omega
      have digit : length - 1 - (0 + part) = length - (part + 1) := by omega
      rw [numberAt, ih (Nat.le_of_succ_le le), bigEndian, quotient, digit, UInt8.toNat_ofNat',
        Nat.mul_succ, Nat.add_comm (8 * part), Nat.pow_add, Nat.mod_mul]
      omega

/-- The digits of a number stand for its residue. -/
theorem numberAt_bigEndian (n : Nat) :
    numberAt (bigEndian length n) 0 length = n % 2 ^ (8 * length) := by
  rw [numberAt_bigEndian_part (Nat.le_refl length), Nat.sub_self, Nat.mul_zero, Nat.pow_zero,
    Nat.div_one]

/-- The number of a list of bytes, from its last one. -/
theorem numberAt_append_singleton (bytes : List UInt8) (last : UInt8) :
    numberAt (fun place => (bytes ++ [last])[place]?.getD 0) 0 (bytes ++ [last]).length =
      last.toNat + 2 ^ 8 * numberAt (fun place => bytes[place]?.getD 0) 0 bytes.length := by
  have front : numberAt (fun place => (bytes ++ [last])[place]?.getD 0) 0 bytes.length =
      numberAt (fun place => bytes[place]?.getD 0) 0 bytes.length := by
    apply numberAt_congr
    intro offset inside
    rw [List.getElem?_append_left (by omega)]
  rw [List.length_append, List.length_singleton, numberAt, front, Nat.zero_add,
    List.getElem?_concat_length, Option.getD_some]
  omega

end Numbers

/-! ## Lists of bytes -/

section Lists

variable (bytes : ByteArray)

/-- The loop of the library collects the bytes from a place on. -/
theorem toList_loop_eq (place : Nat) (read : List UInt8) :
    ByteArray.toList.loop bytes place read = read.reverse ++ bytes.data.toList.drop place := by
  induction place, read using ByteArray.toList.loop.induct bytes with
  | case1 place read inside ih =>
      have next : bytes.get! place = bytes.data.toList.get ⟨place, inside⟩ :=
        getElem!_pos bytes.data place inside
      rw [ByteArray.toList.loop, if_pos inside, ih, List.drop_eq_getElem_cons inside, next,
        List.reverse_cons, List.append_assoc, List.singleton_append]
      rfl
  | case2 place read past =>
      have nothing : bytes.data.toList.length ≤ place := Nat.le_of_not_lt past
      rw [ByteArray.toList.loop, if_neg past, List.drop_eq_nil_of_le nothing, List.append_nil]

theorem toList_eq : bytes.toList = bytes.data.toList :=
  (toList_loop_eq bytes 0 []).trans (List.nil_append _)

theorem byteOf_eq_getElem? (place : Nat) :
    byteOf bytes place = bytes.data.toList[place]?.getD 0 := by
  rw [byteOf, Array.getElem?_toList]

end Lists

end YulGasRules.Collections
