import Mathlib.Data.Nat.ModEq
import YulGasRules.Machine.Accounts

/-!
# Words as bit vectors

A word stands for a bit vector of length 256, and through it for a signed number.  The
instructions work on the underlying numbers; here they are shown to compute what the
operations on bit vectors compute, and so what they are meant to compute on numbers.
-/

namespace YulGasRules.UInt256

theorem toNat_lt (a : UInt256) : a.toNat < 2 ^ 256 := a.val.isLt

/-- The bits of a word. -/
def toBitVec (a : UInt256) : BitVec 256 := .ofNatLT a.toNat a.toNat_lt

/-- The number that a word stands for in two's complement. -/
def signed (a : UInt256) : Int := a.toBitVec.toInt

@[simp] theorem toNat_toBitVec (a : UInt256) : a.toBitVec.toNat = a.toNat := rfl

theorem toBitVec_zero : (⟨0⟩ : UInt256).toBitVec = 0#256 := rfl

theorem ofNat_toNat_eq_toBitVec (a : UInt256) : BitVec.ofNat 256 a.toNat = a.toBitVec := by
  rw [← toNat_toBitVec, BitVec.ofNat_toNat, BitVec.setWidth_eq]

theorem toBitVec_eq_iff {a : UInt256} {bits : BitVec 256} :
    a.toBitVec = bits ↔ a.toNat = bits.toNat := by
  rw [← BitVec.toNat_inj, toNat_toBitVec]

theorem toBitVec_inj {a b : UInt256} : a.toBitVec = b.toBitVec ↔ a = b :=
  ⟨fun same => eq_of_toNat_eq (congrArg BitVec.toNat same), congrArg toBitVec⟩

/-! ## Unsigned operations -/

section Unsigned

variable (a b : UInt256)

theorem toNat_sub : (a - b).toNat = (2 ^ 256 - b.toNat + a.toNat) % 2 ^ 256 := rfl

theorem toBitVec_sub : (a - b).toBitVec = a.toBitVec - b.toBitVec := by
  rw [toBitVec_eq_iff, BitVec.toNat_sub]
  rfl

/-- Division by zero gives zero on both sides. -/
theorem toBitVec_div : (a / b).toBitVec = a.toBitVec.udiv b.toBitVec := by
  rw [toBitVec_eq_iff]
  rfl

/-- A remainder by zero is zero, unlike the one of bit vectors. -/
theorem toBitVec_mod : (a % b).toBitVec = if b = ⟨0⟩ then 0 else a.toBitVec % b.toBitVec := by
  change (if b.val == 0 then _ else _ : UInt256).toBitVec = _
  by_cases zero : b = ⟨0⟩
  · rw [if_pos zero, zero]
    rfl
  · have distinct : ¬(b.val == 0) = true := fun same => zero (congrArg mk (eq_of_beq same))
    rw [if_neg zero, if_neg distinct]
    rfl

theorem toBitVec_land : (a &&& b).toBitVec = a.toBitVec &&& b.toBitVec := by
  rw [toBitVec_eq_iff, BitVec.toNat_and]
  exact Nat.mod_eq_of_lt (Nat.lt_of_le_of_lt Nat.and_le_left a.toNat_lt)

theorem toBitVec_lor : (a ||| b).toBitVec = a.toBitVec ||| b.toBitVec := by
  rw [toBitVec_eq_iff, BitVec.toNat_or]
  exact Nat.mod_eq_of_lt (Nat.or_lt_two_pow a.toNat_lt b.toNat_lt)

/-- A shift by the word size or more leaves nothing. -/
theorem toBitVec_shiftLeft : (a <<< b).toBitVec = a.toBitVec <<< b.toNat := by
  change (if b.val ≥ 256 then _ else _ : UInt256).toBitVec = _
  by_cases wide : b.val ≥ 256
  · rw [if_pos wide, BitVec.shiftLeft_eq_zero (show 256 ≤ b.toNat from wide)]
    rfl
  · rw [if_neg wide, toBitVec_eq_iff, BitVec.toNat_shiftLeft]
    rfl

theorem toBitVec_shiftRight : (a >>> b).toBitVec = a.toBitVec >>> b.toNat := by
  change (if b.val ≥ 256 then _ else _ : UInt256).toBitVec = _
  by_cases wide : b.val ≥ 256
  · rw [if_pos wide, BitVec.ushiftRight_eq_zero (show 256 ≤ b.toNat from wide)]
    rfl
  · rw [if_neg wide, toBitVec_eq_iff, BitVec.toNat_ushiftRight]
    exact Nat.mod_eq_of_lt (Nat.lt_of_le_of_lt (Nat.shiftRight_le _ _) a.toNat_lt)

/-- The subtraction from zero flips the bits. -/
theorem toBitVec_complement : (complement a).toBitVec = ~~~a.toBitVec := by
  rw [toBitVec_eq_iff, BitVec.toNat_not, toNat_toBitVec]
  have bound := a.toNat_lt
  change (2 ^ 256 - (a.toNat + 1) % 2 ^ 256 + 0) % 2 ^ 256 = _
  omega

end Unsigned

/-! ## Signed operations -/

section Signed

/-- The source tells the sign by the size of a word. -/
theorem msb_toBitVec (a : UInt256) : a.toBitVec.msb = decide (2 ^ 255 ≤ a.toNat) := by
  rw [BitVec.msb_eq_decide]
  exact decide_eq_decide.mpr Iff.rfl

theorem val_neg_one : (-1 : Fin size).val = size - 1 := rfl

/-- Multiplication by minus one, as the source negates. -/
theorem toBitVec_negate (a : UInt256) : (⟨a.val * -1⟩ : UInt256).toBitVec = -a.toBitVec := by
  have bound := a.val.isLt
  rw [toBitVec_eq_iff, BitVec.toNat_neg, toNat_toBitVec, toNat, toNat, Fin.val_mul, val_neg_one]
  simp only [size] at *
  omega

variable {a b : UInt256}

theorem toBitVec_abs : a.abs.toBitVec = a.toBitVec.abs := by
  rw [abs, BitVec.abs_eq, msb_toBitVec]
  by_cases negative : 2 ^ 255 ≤ a.toNat
  · simp only [negative, if_true, decide_true, toBitVec_negate]
  · simp only [negative, if_false, decide_false, Bool.false_eq_true]

variable (a b)

/-- Both ways of division go by the absolute values. -/
theorem toBitVec_sdiv : (sdiv a b).toBitVec = a.toBitVec.sdiv b.toBitVec := by
  simp only [sdiv, BitVec.sdiv_eq, msb_toBitVec]
  by_cases negative : 2 ^ 255 ≤ a.toNat
  · by_cases negative' : 2 ^ 255 ≤ b.toNat
    · simp only [negative, negative', if_true, decide_true, toBitVec_div,
        toBitVec_abs, BitVec.abs_eq, msb_toBitVec]
    · simp only [negative, negative', if_true, if_false, decide_true, decide_false,
        toBitVec_negate, toBitVec_div, toBitVec_abs, BitVec.abs_eq, msb_toBitVec]
  · by_cases negative' : 2 ^ 255 ≤ b.toNat
    · simp only [negative, negative', if_true, if_false, decide_true, decide_false,
        toBitVec_negate, toBitVec_div, toBitVec_abs, BitVec.abs_eq, msb_toBitVec]
    · simp only [negative, negative', if_false, decide_false, toBitVec_div]

/-- A signed number is wrapped, over twice the signed range. -/
theorem toBitVec_toSigned {i : Int} (bound : -(2 ^ 256) ≤ i) :
    (toSigned i).toBitVec = .ofInt 256 i := by
  cases i with
  | ofNat n => rfl
  | negSucc n =>
      rw [toBitVec_eq_iff, BitVec.toNat_ofInt]
      change (2 ^ 256 - 1 - n) % 2 ^ 256 = (Int.negSucc n % 2 ^ 256).toNat
      omega

/-- Only zero has the absolute value zero. -/
theorem abs_ne_zero (nonzero : b ≠ ⟨0⟩) : b.abs ≠ ⟨0⟩ := by
  intro zero
  have bits : b.toBitVec.abs = 0 := by
    rw [← toBitVec_abs, zero]
    rfl
  apply nonzero
  apply eq_of_toNat_eq
  have none : b.toBitVec = 0 := by
    rw [BitVec.abs_eq] at bits
    split at bits
    · exact BitVec.neg_eq_zero_iff.mp bits
    · exact bits
  exact congrArg BitVec.toNat none

/-- The residue of signed division, by the absolute values. -/
theorem srem_eq_abs (x y : BitVec 256) :
    x.srem y = if x.msb then -(x.abs % y.abs) else x.abs % y.abs := by
  rw [BitVec.srem_eq, BitVec.abs_eq, BitVec.abs_eq]
  cases x.msb <;> cases y.msb <;> rfl

/-- The remainder has the sign of the dividend, and is zero for a divisor of zero. -/
theorem toBitVec_smod :
    (smod a b).toBitVec = if b = ⟨0⟩ then 0 else a.toBitVec.srem b.toBitVec := by
  rw [smod]
  by_cases zero : b = ⟨0⟩
  · rw [if_pos zero, zero]
    rfl
  · have nonzero : ¬(b.toNat == 0) = true := fun same => zero (eq_of_toNat_eq (eq_of_beq same))
    have rest : (a.abs % b.abs).toBitVec = a.toBitVec.abs % b.toBitVec.abs := by
      rw [toBitVec_mod, if_neg (abs_ne_zero b zero), toBitVec_abs, toBitVec_abs]
    rw [if_neg zero, if_neg nonzero, srem_eq_abs, ← rest, msb_toBitVec, sgn]
    have bound := (a.abs % b.abs).toNat_lt
    by_cases negative : 2 ^ 255 ≤ a.toNat
    · rw [if_pos negative, if_pos (decide_eq_true negative), toBitVec_toSigned (by omega),
        Int.neg_one_mul, BitVec.ofInt_neg, BitVec.ofInt_natCast, ofNat_toNat_eq_toBitVec]
    · rw [if_neg negative, if_neg (mt of_decide_eq_true negative)]
      by_cases none : a.eq0 = true
      · have nothing : a.abs = ⟨0⟩ := by rw [abs, if_neg negative, eq_of_beq none]
        rw [if_pos none, Int.zero_mul, nothing, toBitVec_mod, if_neg (abs_ne_zero b zero),
          toBitVec_zero, BitVec.zero_umod]
        rfl
      · rw [if_neg none, Int.one_mul, toBitVec_toSigned (by omega), BitVec.ofInt_natCast,
          ofNat_toNat_eq_toBitVec]

theorem ult_toBitVec : a.toBitVec.ult b.toBitVec = decide (a < b) :=
  decide_eq_decide.mpr Iff.rfl

/-- The comparison by signs first is the signed order. -/
theorem sltBool_eq : sltBool a b = a.toBitVec.slt b.toBitVec := by
  rw [BitVec.slt_eq_ult, msb_toBitVec, msb_toBitVec, ult_toBitVec, sltBool]
  have order : a < b ↔ a.toNat < b.toNat := Iff.rfl
  by_cases negative : 2 ^ 255 ≤ a.toNat
  · by_cases negative' : 2 ^ 255 ≤ b.toNat
    · simp only [negative, negative', if_true, decide_true, bne_self_eq_false, Bool.false_xor]
    · have above : ¬a < b := order.not.mpr (by omega)
      simp only [negative, negative', above, if_true, if_false, decide_true, decide_false]
      rfl
  · by_cases negative' : 2 ^ 255 ≤ b.toNat
    · have below : a < b := order.mpr (by omega)
      simp only [negative, negative', below, if_true, if_false, decide_true, decide_false]
      rfl
    · simp only [negative, negative', if_false, decide_false, bne_self_eq_false,
        Bool.false_xor]

theorem sgtBool_eq_sltBool : sgtBool a b = sltBool b a := by
  rw [sgtBool, sltBool]
  by_cases negative : 2 ^ 255 ≤ a.toNat <;> by_cases negative' : 2 ^ 255 ≤ b.toNat <;>
    simp only [negative, negative', gt_iff_lt, if_true, if_false]

/-- Flipping, shifting and flipping back fills with the sign. -/
theorem toBitVec_sar : (sar a b).toBitVec = b.toBitVec.sshiftRight a.toNat := by
  have sign : sltBool b ⟨0⟩ = b.toBitVec.msb := by
    rw [sltBool_eq]
    exact BitVec.slt_zero_eq_msb
  rw [sar, sign]
  cases msb : b.toBitVec.msb with
  | true =>
      rw [if_pos rfl, toBitVec_complement, toBitVec_shiftRight, toBitVec_complement,
        BitVec.sshiftRight_eq_of_msb_true msb]
  | false =>
      rw [if_neg Bool.false_ne_true, toBitVec_shiftRight,
        BitVec.sshiftRight_eq_of_msb_false msb]

theorem neg_twoPow (n : Nat) : -BitVec.twoPow 256 n = BitVec.allOnes 256 <<< n := by
  rw [← BitVec.mul_twoPow_eq_shiftLeft, ← BitVec.neg_one_eq_allOnes, BitVec.neg_mul,
    BitVec.one_mul]

/-- A sign extension sets the bits from the sign on, or clears them. -/
theorem signExtend_eq_masked (bits : BitVec 256) (n : Nat) :
    (bits.setWidth (n + 1)).signExtend 256 =
      if bits.getLsbD n then bits ||| -BitVec.twoPow 256 n
      else bits &&& ~~~(-BitVec.twoPow 256 n) := by
  rw [neg_twoPow]
  apply BitVec.eq_of_getLsbD_eq
  intro i inside
  rw [BitVec.getLsbD_signExtend, BitVec.msb_setWidth'', BitVec.getLsbD_setWidth]
  cases sign : bits.getLsbD n with
  | true =>
      simp only [if_true, BitVec.getLsbD_or, BitVec.getLsbD_shiftLeft, BitVec.getLsbD_allOnes]
      grind
  | false =>
      simp only [Bool.false_eq_true, if_false, BitVec.getLsbD_and, BitVec.getLsbD_not,
        BitVec.getLsbD_shiftLeft, BitVec.getLsbD_allOnes]
      grind

/-- A single bit is tested by its mask. -/
theorem land_ne_zero_iff {mark : UInt256} {n : Nat}
    (bit : mark.toBitVec = .twoPow 256 n) (inside : n < 256) :
    b &&& mark ≠ ⟨0⟩ ↔ b.toBitVec.getLsbD n = true := by
  rw [← toBitVec_inj.ne, toBitVec_land, bit, BitVec.and_twoPow, toBitVec_zero]
  cases b.toBitVec.getLsbD n with
  | true =>
      have set : (BitVec.twoPow 256 n).getLsbD n = true := by
        rw [BitVec.getLsbD_twoPow, decide_eq_true inside, decide_eq_true rfl, Bool.and_self]
      refine iff_of_true (fun zero => ?_) rfl
      rw [if_pos rfl] at zero
      rw [zero, BitVec.getLsbD_zero] at set
      cases set
  | false => exact iff_of_false (fun distinct => distinct rfl) Bool.false_ne_true

/-- A sign extension keeps the low bytes and fills the others with the sign. -/
theorem toBitVec_signextend (low : a.toNat ≤ 31) :
    (signextend a b).toBitVec =
      (b.toBitVec.setWidth (8 * a.toNat + 7 + 1)).signExtend 256 := by
  have place : (a * ⟨8⟩ + ⟨7⟩ : UInt256).toNat = 8 * a.toNat + 7 := by
    change ((a.toNat * 8) % size + 7) % size = _
    simp only [size]
    omega
  have bit : ((⟨1⟩ : UInt256) <<< (a * ⟨8⟩ + ⟨7⟩ : UInt256)).toBitVec =
      .twoPow 256 (8 * a.toNat + 7) := by
    rw [toBitVec_shiftLeft, place]
    rfl
  simp only [signExtend_eq_masked, signextend, if_pos low]
  revert bit
  generalize (⟨1⟩ : UInt256) <<< (a * ⟨8⟩ + ⟨7⟩ : UInt256) = mark
  intro bit
  have sign := land_ne_zero_iff b bit (by omega)
  by_cases negative : b &&& mark ≠ ⟨0⟩
  · rw [if_pos negative, if_pos (sign.mp negative), toBitVec_lor, toBitVec_sub, bit,
      ← BitVec.zero_sub]
    rfl
  · rw [if_neg negative, if_neg (mt sign.mpr negative), toBitVec_land, toBitVec_sub, bit,
      BitVec.not_neg]
    rfl

/-! ## Instructions on signed numbers -/

/-- The one quotient out of range, that of the least number by minus one, wraps around. -/
theorem signed_sdiv : (sdiv a b).signed = (a.signed.tdiv b.signed).bmod (2 ^ 256) := by
  rw [signed, toBitVec_sdiv, BitVec.toInt_sdiv]
  rfl

theorem signed_smod :
    (smod a b).signed = if b = ⟨0⟩ then 0 else a.signed.tmod b.signed := by
  rw [signed, toBitVec_smod]
  split
  · rfl
  · exact BitVec.toInt_srem a.toBitVec b.toBitVec

/-- The signed order is that of the numbers. -/
theorem slt_iff : sltBool a b = true ↔ a.signed < b.signed := by
  rw [sltBool_eq]
  exact BitVec.slt_iff_toInt_lt

/-- `signextend a b` reads the low `a + 1` bytes of `b` as a signed number. -/
theorem signed_signextend :
    (signextend a b).signed =
      if a.toNat ≤ 31 then (b.toNat : Int).bmod (2 ^ (8 * a.toNat + 8)) else b.signed := by
  by_cases low : a.toNat ≤ 31
  · rw [if_pos low, signed, toBitVec_signextend a b low,
      BitVec.toInt_signExtend_of_le (by omega), BitVec.toInt_setWidth]
    rfl
  · rw [if_neg low, signextend, if_neg low]

/-- An arithmetic shift divides, rounding down. -/
theorem signed_sar : (sar a b).signed = b.signed >>> a.toNat := by
  rw [signed, toBitVec_sar, BitVec.toInt_sshiftRight]
  rfl

end Signed

/-! ## Powers -/

theorem toNat_mul (a b : UInt256) : (a * b).toNat = a.toNat * b.toNat % 2 ^ 256 := rfl

/-- A square in the base may be reduced before it is raised to a power. -/
theorem mul_pow_modEq (m n k : Nat) :
    (m % 2 ^ 256) * (n % 2 ^ 256) ^ k ≡ m * n ^ k [MOD (2 ^ 256)] :=
  (Nat.mod_modEq m _).mul ((Nat.mod_modEq n _).pow k)

/-- Each round keeps the product of the accumulator and the outstanding power. -/
theorem toNat_powAux (a c : UInt256) (n : Nat) :
    (powAux a c n).toNat = a.toNat * c.toNat ^ n % 2 ^ 256 := by
  induction a, c, n using powAux.induct with
  | case1 a c =>
      rw [powAux, Nat.pow_zero, Nat.mul_one, Nat.mod_eq_of_lt a.toNat_lt]
  | case2 a c k odd ih =>
      have half : (k + 1) / 2 * 2 + 1 = k + 1 := by
        have rest := eq_of_beq odd
        omega
      have power : c.toNat ^ (k + 1) = c.toNat * (c.toNat * c.toNat) ^ ((k + 1) / 2) := by
        rw [← Nat.pow_two, ← Nat.pow_mul', ← Nat.pow_succ', Nat.succ_eq_add_one, half]
      rw [powAux, if_pos odd, ih, toNat_mul, toNat_mul, power, ← Nat.mul_assoc]
      exact mul_pow_modEq _ _ _
  | case3 a c k even ih =>
      have half : (k + 1) / 2 * 2 = k + 1 := by
        have rest : (k + 1) % 2 ≠ 1 := fun rest => even (beq_iff_eq.mpr rest)
        omega
      have power : c.toNat ^ (k + 1) = (c.toNat * c.toNat) ^ ((k + 1) / 2) := by
        rw [← Nat.pow_two, ← Nat.pow_mul', half]
      rw [powAux, if_neg even, ih, toNat_mul, power]
      exact ((Nat.mod_modEq _ _).pow _).mul_left _

/-- Exponentiation is that of numbers, modulo the word size. -/
theorem toNat_exp (a b : UInt256) : (exp a b).toNat = a.toNat ^ b.toNat % 2 ^ 256 := by
  rw [exp, pow, toNat_powAux]
  exact congrArg (· % 2 ^ 256) (Nat.one_mul _)

end YulGasRules.UInt256
