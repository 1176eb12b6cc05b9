import YulGasRules.Machine.Words

/-!
# Words as numbers

Every arithmetic instruction computes the word of a number.  The number comes from the
operands, read as they are or in two's complement; a word keeps of it what fits into 256
bits.
-/

namespace YulGasRules.UInt256

/-- The word of a number, which wraps around. -/
def wrap (n : Int) : UInt256 := ofNat (n % 2 ^ 256).toNat

/-- What a word keeps of a number is its residue. -/
theorem toNat_wrap (n : Int) : ((wrap n).toNat : Int) = n % 2 ^ 256 := by
  have positive : (0 : Int) < 2 ^ 256 := by decide
  have above := Int.emod_nonneg n (Int.ne_of_gt positive)
  have below := Int.emod_lt_of_pos n positive
  change (((n % 2 ^ 256).toNat % 2 ^ 256 : Nat) : Int) = _
  omega

theorem eq_wrap_iff {a : UInt256} {n : Int} : a = wrap n ↔ (a.toNat : Int) = n % 2 ^ 256 := by
  rw [← toNat_wrap, Int.ofNat_inj]
  exact ⟨congrArg toNat, eq_of_toNat_eq⟩

/-- To compute a natural number, it is enough to have its residue. -/
theorem eq_wrap_natCast {a : UInt256} {n : Nat} (value : a.toNat = n % 2 ^ 256) :
    a = wrap n := by
  rw [eq_wrap_iff, value]
  omega

/-- Read in two's complement or not, a word has the same residue. -/
theorem signed_emod (a : UInt256) : a.signed % 2 ^ 256 = a.toNat := by
  have bound := a.toNat_lt
  have value := Int.bmod_emod (x := a.toNat) (m := 2 ^ 256)
  rw [signed, BitVec.toInt_eq_toNat_bmod, toNat_toBitVec]
  omega

/-- A number may be computed from operands in two's complement as well. -/
theorem eq_wrap_of_signed {a : UInt256} {n : Int} (value : a.signed % 2 ^ 256 = n % 2 ^ 256) :
    a = wrap n :=
  eq_wrap_iff.mpr ((signed_emod a).symm.trans value)

section Instructions

variable (a b c : UInt256)

/-- Addition wraps around. -/
theorem add_eq_wrap : a.add b = wrap ↑(a.toNat + b.toNat) := eq_wrap_natCast rfl

/-- Subtraction wraps around below zero. -/
theorem sub_eq_wrap : a.sub b = wrap (a.toNat - b.toNat) := by
  have value : (a.sub b).toNat = (2 ^ 256 - b.toNat + a.toNat) % 2 ^ 256 := rfl
  have bound := b.toNat_lt
  rw [eq_wrap_iff, value]
  omega

theorem mul_eq_wrap : a.mul b = wrap ↑(a.toNat * b.toNat) := eq_wrap_natCast rfl

theorem eq_wrap_toNat : a = wrap a.toNat := eq_wrap_natCast (Nat.mod_eq_of_lt a.toNat_lt).symm

/-- Division by zero gives zero, as it does for numbers. -/
theorem div_eq_wrap : a.div b = wrap ↑(a.toNat / b.toNat) := eq_wrap_toNat (a.div b)

/-- The remainder by zero is zero, and not the dividend. -/
theorem mod_eq_wrap : a.mod b = wrap ↑(if b = ⟨0⟩ then 0 else a.toNat % b.toNat) := by
  rw [mod]
  by_cases zero : b = ⟨0⟩
  · rw [if_pos zero, zero]
    rfl
  · have distinct : ¬(b.val == 0) = true := fun same => zero (congrArg mk (eq_of_beq same))
    rw [if_neg zero, if_neg distinct]
    exact eq_wrap_toNat _

/-- Signed division rounds towards zero.  The quotient of the least number by `-1` wraps.
-/
theorem sdiv_eq_wrap : sdiv a b = wrap (a.signed.tdiv b.signed) := by
  apply eq_wrap_of_signed
  rw [signed_sdiv]
  exact Int.bmod_emod

/-- The signed remainder has the sign of the dividend. -/
theorem smod_eq_wrap : smod a b = wrap (if b = ⟨0⟩ then 0 else a.signed.tmod b.signed) := by
  apply eq_wrap_of_signed
  rw [signed_smod]

/-- The test for zero by which the instructions branch. -/
theorem eq0_iff {a : UInt256} : eq0 a = true ↔ a = ⟨0⟩ := beq_iff_eq

/-- The sum is not reduced to 256 bits before the remainder is taken. -/
theorem addMod_eq_wrap :
    addMod a b c = wrap ↑(if c = ⟨0⟩ then 0 else (a.toNat + b.toNat) % c.toNat) := by
  rw [addMod]
  by_cases zero : c = ⟨0⟩
  · rw [if_pos zero, if_pos (eq0_iff.mpr zero)]
    rfl
  · rw [if_neg zero, if_neg (mt eq0_iff.mp zero)]
    exact eq_wrap_natCast rfl

/-- Neither is the product. -/
theorem mulMod_eq_wrap :
    mulMod a b c = wrap ↑(if c = ⟨0⟩ then 0 else a.toNat * b.toNat % c.toNat) := by
  rw [mulMod]
  by_cases zero : c = ⟨0⟩
  · rw [if_pos zero, if_pos (eq0_iff.mpr zero)]
    rfl
  · rw [if_neg zero, if_neg (mt eq0_iff.mp zero)]
    exact eq_wrap_natCast rfl

/-- Square-and-multiply computes the power. -/
theorem exp_eq_wrap : exp a b = wrap ↑(a.toNat ^ b.toNat) := eq_wrap_natCast (toNat_exp a b)

/-- The low bytes of a word, read in two's complement.  From 31 on, the first operand
takes in all of them. -/
theorem signextend_eq_wrap : signextend a b =
    wrap (if a.toNat ≤ 31 then (b.toNat : Int).bmod (2 ^ (8 * a.toNat + 8)) else b.signed) := by
  apply eq_wrap_of_signed
  rw [signed_signextend]

/-- A comparison gives the word of a truth value. -/
theorem fromBool_eq_wrap (test : Bool) : fromBool test = wrap test.toNat := by
  cases test <;> rfl

theorem lt_eq_wrap : lt a b = wrap (decide (a.toNat < b.toNat)).toNat :=
  fromBool_eq_wrap (decide (a.toNat < b.toNat))

theorem gt_eq_wrap : gt a b = wrap (decide (b.toNat < a.toNat)).toNat :=
  fromBool_eq_wrap (decide (b.toNat < a.toNat))

/-- The signed comparison compares numbers in two's complement. -/
theorem slt_eq_wrap : slt a b = wrap (decide (a.signed < b.signed)).toNat := by
  rw [slt, fromBool_eq_wrap, Bool.eq_iff_iff.mpr ((slt_iff a b).trans decide_eq_true_iff.symm)]

/-- It does so the other way around as well. -/
theorem sgt_eq_wrap : sgt a b = wrap (decide (b.signed < a.signed)).toNat := by
  rw [sgt, sgtBool_eq_sltBool]
  exact slt_eq_wrap b a

theorem eq_eq_wrap : eq a b = wrap (decide (a = b)).toNat := fromBool_eq_wrap (decide (a = b))

theorem isZero_eq_wrap : isZero a = wrap (decide (a = ⟨0⟩)).toNat :=
  fromBool_eq_wrap (decide (a = ⟨0⟩))

theorem land_eq_wrap : a.land b = wrap ↑(a.toNat &&& b.toNat) := eq_wrap_natCast rfl

theorem lor_eq_wrap : a.lor b = wrap ↑(a.toNat ||| b.toNat) := eq_wrap_natCast rfl

theorem xor_eq_wrap : a.xor b = wrap ↑(a.toNat ^^^ b.toNat) := eq_wrap_natCast rfl

/-- The complement is the residue of a negative number. -/
theorem lnot_eq_wrap : lnot a = wrap (-1 - a.toNat) := by
  have bound := a.toNat_lt
  have top : (ofNat (size - 1)).toNat = 2 ^ 256 - 1 := rfl
  rw [eq_wrap_iff, lnot, toNat_sub, top]
  omega

/-- A shift to the left multiplies.  By 256 and more, nothing is left. -/
theorem shiftLeft_eq_wrap : b.shiftLeft a = wrap ↑(b.toNat * 2 ^ a.toNat) := by
  apply eq_wrap_natCast
  have bits := congrArg BitVec.toNat (toBitVec_shiftLeft b a)
  rw [BitVec.toNat_shiftLeft, Nat.shiftLeft_eq] at bits
  exact bits

/-- A shift to the right divides, and rounds down. -/
theorem toNat_shiftRight : (a >>> b).toNat = a.toNat / 2 ^ b.toNat := by
  have bits := congrArg BitVec.toNat (toBitVec_shiftRight a b)
  rw [BitVec.toNat_ushiftRight, Nat.shiftRight_eq_div_pow] at bits
  exact bits

theorem shiftRight_eq_wrap : b.shiftRight a = wrap ↑(b.toNat / 2 ^ a.toNat) := by
  rw [← toNat_shiftRight]
  exact eq_wrap_toNat _

/-- The arithmetic shift divides the signed number, and rounds down. -/
theorem sar_eq_wrap : sar a b = wrap (b.signed / 2 ^ a.toNat) := by
  apply eq_wrap_of_signed
  rw [signed_sar, Int.shiftRight_eq_div_pow]
  rfl

/-- Bytes are counted from the most significant one. -/
theorem byteAt_eq_wrap : byteAt a b =
    wrap ↑(if a.toNat ≤ 31 then b.toNat / 2 ^ ((31 - a.toNat) * 8) % 2 ^ 8 else 0 : Nat) := by
  have order : a > ⟨31⟩ ↔ ¬a.toNat ≤ 31 := Nat.not_le.symm
  rw [byteAt]
  by_cases inside : a.toNat ≤ 31
  · rw [if_pos inside, if_neg (mt order.mp (not_not_intro inside))]
    have amount : (ofNat ((31 - a.toNat) * 8)).toNat = (31 - a.toNat) * 8 :=
      Nat.mod_eq_of_lt (by simp only [size]; omega)
    have shifted := toNat_shiftRight b (ofNat ((31 - a.toNat) * 8))
    rw [amount] at shifted
    rw [← shifted]
    apply eq_wrap_natCast
    have masked := congrArg BitVec.toNat
      (toBitVec_land (b >>> ofNat ((31 - a.toNat) * 8)) ⟨0xFF⟩)
    rw [toNat_toBitVec, BitVec.toNat_and] at masked
    rw [masked, toNat_toBitVec, ← Nat.and_two_pow_sub_one_eq_mod _ 8]
    exact (Nat.mod_eq_of_lt (Nat.lt_of_le_of_lt Nat.and_le_left (toNat_lt _))).symm
  · rw [if_neg inside, if_pos (order.mpr inside)]
    rfl

end Instructions

end YulGasRules.UInt256
