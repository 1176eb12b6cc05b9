import YulGasRules.Collections.ByteArrays
import YulGasRules.Machine.Numbers

/-!
# Words as bytes

A word in memory is 32 bytes, the most significant one first.  Encoding a word and reading
it back gives the word, and padded reads and growing writes do to the bytes what they are
meant to do, up to the length of the arrays that the foreign function can make.
-/

namespace YulGasRules

open Collections

/-! ## Decoding -/

theorem fromBytes'_reverse (bytes : List UInt8) :
    fromBytes' bytes.reverse = numberAt (fun place => bytes[place]?.getD 0) 0 bytes.length := by
  induction bytes using List.reverseRecOn with
  | nil => rfl
  | append_singleton bytes last ih =>
      rw [numberAt_append_singleton, ← ih, List.reverse_append]
      rfl

/-- Decoding reads off a number in base 256. -/
theorem fromByteArrayBigEndian_eq (bytes : ByteArray) :
    fromByteArrayBigEndian bytes = numberAt (byteOf bytes) 0 bytes.size := by
  rw [fromByteArrayBigEndian, fromBytesBigEndian, fromBytes'_reverse, toList_eq,
    Array.length_toList, ByteArray.size_data]
  exact congrArg (numberAt · 0 bytes.size) (funext fun place => (byteOf_eq_getElem? ..).symm)

/-! ## Encoding -/

/-- Each digit by its place, and zeros past the last one. -/
theorem getElem?_toBytes' (n place : Nat) :
    (toBytes' n)[place]?.getD 0 = UInt8.ofNat (n / 2 ^ (8 * place)) := by
  induction n using toBytes'.induct generalizing place with
  | case1 =>
      rw [toBytes', Nat.zero_div]
      rfl
  | case2 n ih =>
      rw [toBytes']
      cases place with
      | zero =>
          rw [Nat.mul_zero, Nat.pow_zero, Nat.div_one]
          exact UInt8.ofNat_mod_size
      | succ place =>
          rw [List.getElem?_cons_succ, ih, Nat.div_div_eq_div_mul, Nat.mul_succ,
            Nat.add_comm (8 * place), Nat.pow_add]

/-- A small number has few digits. -/
theorem length_toBytes'_le {n length : Nat} (bound : n < 2 ^ (8 * length)) :
    (toBytes' n).length ≤ length := by
  induction n using toBytes'.induct generalizing length with
  | case1 =>
      rw [toBytes']
      exact Nat.zero_le length
  | case2 n ih =>
      rw [toBytes']
      cases length with
      | zero => omega
      | succ length =>
          apply Nat.succ_le_succ
          apply ih
          rw [Nat.mul_succ, Nat.pow_add] at bound
          exact Nat.div_lt_of_lt_mul ((Nat.mul_comm ..).symm ▸ bound)

theorem size_zeroes_le (length : Nat) : (FFI.zeroes (.ofNat length)).size ≤ length := by
  rw [FFI.zeroes, ← ByteArray.size_data, Array.size_replicate, UInt64.toNat_ofNat']
  exact Nat.mod_le _ _

/-- The padding is as long as asked for, below the range of its counter. -/
theorem size_zeroes {length : Nat} (short : length < 2 ^ 64) :
    (FFI.zeroes (.ofNat length)).size = length := by
  rw [FFI.zeroes, ← ByteArray.size_data, Array.size_replicate, UInt64.toNat_ofNat']
  exact Nat.mod_eq_of_lt short

theorem byteOf_zeroes (length : UInt64) : byteOf (FFI.zeroes length) = fun _ => 0 :=
  funext fun _ => byteOf_replicate length.toNat

namespace UInt256

variable (v : UInt256)

theorem length_toBytesBigEndian_le : (toBytesBigEndian v.toNat).length ≤ 32 := by
  rw [toBytesBigEndian, List.length_reverse]
  exact length_toBytes'_le v.toNat_lt

/-- A word is encoded by 32 bytes. -/
theorem size_toByteArray : v.toByteArray.size = 32 := by
  have short := v.length_toBytesBigEndian_le
  simp only [toByteArray, ByteArray.size_append, BE, List.size_toByteArray]
  rw [size_zeroes (by omega)]
  omega

/-- The encoding consists of the digits of the word. -/
theorem byteOf_toByteArray {place : Nat} (inside : place < 32) :
    byteOf v.toByteArray place = bigEndian 32 v.toNat place := by
  have short := v.length_toBytesBigEndian_le
  have length : (toBytesBigEndian v.toNat).length = (toBytes' v.toNat).length :=
    List.length_reverse ..
  simp only [toByteArray, byteOf_append, BE, List.size_toByteArray]
  rw [size_zeroes (by omega), byteOf_zeroes, bigEndian, ← getElem?_toBytes']
  split
  · have past : (toBytes' v.toNat).length ≤ 32 - 1 - place := by omega
    rw [List.getElem?_eq_none past]
    rfl
  · rw [byteOf_eq_getElem?, List.toList_data_toByteArray, length, toBytesBigEndian,
      List.getElem?_reverse (by omega)]
    congr 2
    omega

/-- A word can be read back from its encoding. -/
theorem fromByteArrayBigEndian_toByteArray : fromByteArrayBigEndian v.toByteArray = v.toNat := by
  have digits : numberAt (byteOf v.toByteArray) 0 32 = numberAt (bigEndian 32 v.toNat) 0 32 := by
    apply numberAt_congr
    intro offset inside
    rw [Nat.zero_add, byteOf_toByteArray v inside]
  rw [fromByteArrayBigEndian_eq, size_toByteArray, digits, numberAt_bigEndian]
  exact Nat.mod_eq_of_lt v.toNat_lt

end UInt256

/-! ## Reads and writes -/

/-- Where an access of `len` bytes at `addr` ends. -/
def reach (addr len : Nat) : Nat := if len = 0 then 0 else addr + len

/-- An access that ends below the limit is no longer than the limit. -/
theorem lt_of_reach_lt {addr len : Nat} (near : reach addr len < 2 ^ 64) : len < 2 ^ 64 := by
  rw [reach] at near
  split at near <;> omega

section Slices

variable (source dest : ByteArray) {start addr len place : Nat}

/-- Padding with zeros cannot be seen in the bytes. -/
theorem byteOf_append_zeroes (length : UInt64) :
    byteOf (source ++ FFI.zeroes length) = byteOf source := by
  funext place
  rw [byteOf_append, byteOf_zeroes]
  split
  · rfl
  · exact (byteOf_of_past (by omega)).symm

/-- No more is read than asked for. -/
theorem size_readWithoutPadding_le : (source.readWithoutPadding addr len).size ≤ len := by
  rw [ByteArray.readWithoutPadding]
  split
  · exact Nat.zero_le len
  · rw [ByteArray.size_extract]
    omega

theorem byteOf_readWithoutPadding (inside : place < len) :
    byteOf (source.readWithoutPadding addr len) place = byteOf source (addr + place) := by
  rw [ByteArray.readWithoutPadding]
  split
  · rw [byteOf_of_past (Nat.zero_le place), byteOf_of_past (by omega)]
  · rw [byteOf_extract]
    split
    · rfl
    · exact (byteOf_of_past (by omega)).symm

/-- Exactly as much is read as asked for. -/
theorem size_readWithPadding (short : len < 2 ^ 64) :
    (source.readWithPadding addr len).size = len := by
  have le : (source.readWithoutPadding addr len).size ≤ len := size_readWithoutPadding_le source
  rw [ByteArray.readWithPadding, if_neg (by omega), ByteArray.size_append,
    size_zeroes (by omega)]
  omega

/-- What is read is what stands there. -/
theorem byteOf_readWithPadding (short : len < 2 ^ 64) (inside : place < len) :
    byteOf (source.readWithPadding addr len) place = byteOf source (addr + place) := by
  rw [ByteArray.readWithPadding, if_neg (by omega), byteOf_append_zeroes,
    byteOf_readWithoutPadding source inside]

theorem readWithPadding_eq_sliceOf (short : len < 2 ^ 64) :
    source.readWithPadding addr len = sliceOf (byteOf source) addr len := by
  apply eq_of_byteOf_eq
  · rw [size_readWithPadding source short, size_sliceOf]
  · intro place inside
    rw [size_readWithPadding source short] at inside
    rw [byteOf_readWithPadding source short inside, byteOf_sliceOf _ inside]

/-- A part that is read and decoded is the number that stands there. -/
theorem fromByteArrayBigEndian_readWithPadding (short : len < 2 ^ 64) :
    fromByteArrayBigEndian (source.readWithPadding addr len) =
      numberAt (byteOf source) addr len := by
  rw [fromByteArrayBigEndian_eq, size_readWithPadding source short]
  apply numberAt_congr
  intro offset inside
  rw [Nat.zero_add, byteOf_readWithPadding source short inside]

/-- Only the way in which calldata is read depends on how far out the place is. -/
theorem byteOf_readBytes (inside : place < len) :
    byteOf (source.readBytes start len) place = byteOf source (start + place) := by
  rw [ByteArray.readBytes, byteOf_append_zeroes]
  split
  · rw [byteOf_copySlice _ _ (Nat.zero_le _), overlay]
    split
    · rfl
    · rw [byteOf_of_past (Nat.zero_le place), byteOf_of_past (by omega)]
  · rw [byteOf_eq_getElem?, byteOf_eq_getElem?, toList_eq, List.getElem?_take_of_lt inside,
      List.getElem?_drop]

theorem size_readBytes (short : len < 2 ^ 64) : (source.readBytes start len).size = len := by
  have le : (if start < 2 ^ 64 && len < 2 ^ 64 then source.copySlice start ByteArray.empty 0 len
      else ⟨⟨source.toList.drop start |>.take len⟩⟩ : ByteArray).size ≤ len := by
    split
    · exact (size_copySlice_le _ _ _).trans (by simp)
    · exact List.length_take_le ..
  rw [ByteArray.readBytes, ByteArray.size_append, size_zeroes (by omega)]
  omega

/-- A word that is decoded from 32 bytes of calldata. -/
theorem uInt256OfByteArray_readBytes :
    uInt256OfByteArray (source.readBytes start 32) =
      .ofNat (numberAt (byteOf source) start 32) := by
  have decoded : uInt256OfByteArray (source.readBytes start 32) =
      .ofNat (fromByteArrayBigEndian (source.readBytes start 32)) := by
    rw [uInt256OfByteArray, fromByteArrayBigEndian, fromBytesBigEndian, toList_eq]
  have same : numberAt (byteOf (source.readBytes start 32)) 0 32 =
      numberAt (byteOf source) start 32 := by
    apply numberAt_congr
    intro offset inside
    rw [Nat.zero_add, byteOf_readBytes source inside]
  rw [decoded, fromByteArrayBigEndian_eq, size_readBytes source (by decide), same]

/-- A write grows the array at most to where it ends. -/
theorem size_write_le :
    (source.write start dest addr len).size ≤ max dest.size (reach addr len) := by
  rw [ByteArray.write, reach]
  split
  · exact Nat.le_max_left ..
  · split
    · apply Nat.le_trans (size_copySlice_le _ _ _)
      omega
    · apply Nat.le_trans (size_copySlice_le _ _ _)
      have padding := size_zeroes_le (addr - dest.size)
      rw [ByteArray.size_append]
      omega

/-- A write is an overlay.  Bytes that the source lacks are zeros. -/
theorem byteOf_write (near : addr < 2 ^ 64) (small : dest.size < 2 ^ 64) :
    byteOf (source.write start dest addr len) =
      overlay (byteOf dest) addr len fun offset => byteOf source (start + offset) := by
  rw [ByteArray.write]
  split
  · rename_i none
    rw [none, overlay_zero]
  · split
    · rename_i past
      simp only [byteOf_copySlice _ _ (Nat.min_le_right addr dest.size), byteOf_zeroes]
      funext place
      rw [size_zeroes (by omega)]
      simp only [overlay]
      have nothing : ∀ offset, byteOf source (start + offset) = 0 := by
        intro offset
        exact byteOf_of_past (by omega)
      by_cases span : addr ≤ place ∧ place < addr + len
      · rw [if_pos span, nothing]
        split
        · rfl
        · exact byteOf_of_past (by omega)
      · rw [if_neg span, if_neg (by omega)]
    · rename_i reaches
      have room : addr ≤ (dest ++ FFI.zeroes (.ofNat (addr - dest.size))).size := by
        rw [ByteArray.size_append, size_zeroes (by omega)]
        omega
      simp only [byteOf_copySlice _ _ room, byteOf_append_zeroes, ByteArray.size_append]
      rw [size_zeroes (by omega)]
      funext place
      simp only [overlay]
      by_cases span : addr ≤ place ∧ place < addr + len
      · rw [if_pos span]
        split
        · rfl
        · rw [byteOf_of_past (by omega), byteOf_of_past (by omega)]
      · rw [if_neg span, if_neg (by omega)]

end Slices

end YulGasRules
