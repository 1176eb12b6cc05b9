import Mathlib.Algebra.GroupWithZero.Nat
import Mathlib.Data.Fin.Basic

/-!
# Machine words

The 256-bit words of the machine and the arithmetic of its instructions.  A word
wraps a `Fin` of the modulus; every operation follows the executable definition
of the source, including its treatment of division by zero, of shifts by at
least the word size, and of signed operands.
-/

namespace YulGasRules

/-- The size of type `UInt256`, that is, `2^256`. -/
def UInt256.size : Nat :=
  115792089237316195423570985008687907853269984665640564039457584007913129639936

instance UInt256.neZero_size : NeZero UInt256.size where
  out := Nat.succ_ne_zero (UInt256.size - 1)

/-- A word of the machine. -/
structure UInt256 where
  val : Fin UInt256.size
  deriving DecidableEq

namespace UInt256

/-- The residue of a number. -/
def ofNat (n : Nat) : UInt256 := ⟨Fin.ofNat _ n⟩

/-- A word as an unsigned number. -/
def toNat (u : UInt256) : Nat := u.val.val

instance {n : Nat} : OfNat (Fin UInt256.size) n := ⟨Fin.ofNat _ n⟩
instance : Inhabited UInt256 := ⟨ofNat 0⟩
instance : Repr UInt256 where
  reprPrec n _ := repr n.toNat

/-- The word of a truth value. -/
def fromBool (b : Bool) : UInt256 :=
  if b then ofNat 1 else ofNat 0

def add (a b : UInt256) : UInt256 := ⟨a.val + b.val⟩
def sub (a b : UInt256) : UInt256 := ⟨a.val - b.val⟩
def mul (a b : UInt256) : UInt256 := ⟨a.val * b.val⟩
def div (a b : UInt256) : UInt256 := ⟨a.val / b.val⟩
/-- The residue of a division by zero is zero. -/
def mod (a b : UInt256) : UInt256 := if b.val == 0 then ⟨0⟩ else ⟨a.val % b.val⟩
def land (a b : UInt256) : UInt256 := ⟨Fin.land a.val b.val⟩
def lor (a b : UInt256) : UInt256 := ⟨Fin.lor a.val b.val⟩
def xor (a b : UInt256) : UInt256 := ⟨Fin.xor a.val b.val⟩
/-- A shift by the word size or more leaves nothing. -/
def shiftLeft (a b : UInt256) : UInt256 :=
  if b.val >= 256 then ⟨0⟩ else ⟨a.val <<< b.val⟩
def shiftRight (a b : UInt256) : UInt256 :=
  if b.val >= 256 then ⟨0⟩ else ⟨a.val >>> b.val⟩

instance : Add UInt256 := ⟨UInt256.add⟩
instance : Sub UInt256 := ⟨UInt256.sub⟩
instance : Mul UInt256 := ⟨UInt256.mul⟩
instance : Div UInt256 := ⟨UInt256.div⟩
instance : Mod UInt256 := ⟨UInt256.mod⟩
instance : AndOp UInt256 := ⟨UInt256.land⟩
instance : OrOp UInt256 := ⟨UInt256.lor⟩
instance : ShiftLeft UInt256 := ⟨UInt256.shiftLeft⟩
instance : ShiftRight UInt256 := ⟨UInt256.shiftRight⟩
instance : LT UInt256 where lt a b := a.val < b.val
instance : LE UInt256 where le a b := a.val ≤ b.val

instance (a b : UInt256) : Decidable (a < b) :=
  inferInstanceAs (Decidable (a.val < b.val))
instance (a b : UInt256) : Decidable (a ≤ b) :=
  inferInstanceAs (Decidable (a.val ≤ b.val))

/-- All bits flipped, on the way to an arithmetic shift. -/
def complement (a : UInt256) : UInt256 := ⟨0 - (a.val + 1)⟩

/-- All bits flipped, as `NOT` does. -/
def lnot (a : UInt256) : UInt256 := ofNat (UInt256.size - 1) - a

/-- Absolute value of a word read as a signed number. -/
def abs (a : UInt256) : UInt256 :=
  if 2 ^ 255 <= a.toNat then ⟨a.val * (-1)⟩ else a

/-- The word of a signed number, which has to be `-2^256` at least. -/
def toSigned (i : Int) : UInt256 :=
  match i with
  | .ofNat n => ofNat n
  | .negSucc n => ofNat (UInt256.size - 1 - n)

/-- Square-and-multiply, on the exponent as a natural number. -/
def powAux (a c : UInt256) : Nat → UInt256
  | 0 => a
  | k + 1 =>
      if (k + 1) % 2 == 1 then powAux (a * c) (c * c) ((k + 1) / 2)
      else powAux a (c * c) ((k + 1) / 2)
termination_by n => n
decreasing_by all_goals omega

def pow (b n : UInt256) : UInt256 := powAux ⟨1⟩ b n.val.val

/-- Whether a word is zero. -/
def eq0 (a : UInt256) : Bool := a == ⟨0⟩

/-- The bytes of a word are counted from the most significant one. -/
def byteAt (a b : UInt256) : UInt256 :=
  if a > ⟨31⟩ then ⟨0⟩
  else b >>> (UInt256.ofNat ((31 - a.toNat) * 8)) &&& ⟨0xFF⟩

/-- The sign of a word read as a signed number. -/
def sgn (a : UInt256) : Int :=
  if 2 ^ 255 <= a.toNat then -1 else if eq0 a then 0 else 1

/-- Division of signed numbers, on their absolute values. -/
def sdiv (a b : UInt256) : UInt256 :=
  if 2 ^ 255 <= a.toNat then
    if 2 ^ 255 <= b.toNat then abs a / abs b
    else ⟨(abs a / b).val * -1⟩
  else
    if 2 ^ 255 <= b.toNat then ⟨(a / abs b).val * -1⟩
    else a / b

/-- The residue takes the sign of the dividend. -/
def smod (a b : UInt256) : UInt256 :=
  if b.toNat == 0 then ⟨0⟩
  else toSigned <| sgn a * (abs a % abs b).toNat

/-- The order of signed numbers, by their signs first. -/
def sltBool (a b : UInt256) : Bool :=
  if a.toNat ≥ 2 ^ 255 then
    if b.toNat ≥ 2 ^ 255 then a < b else true
  else
    if b.toNat ≥ 2 ^ 255 then false else a < b

def sgtBool (a b : UInt256) : Bool :=
  if a.toNat ≥ 2 ^ 255 then
    if b.toNat ≥ 2 ^ 255 then a > b else false
  else
    if b.toNat ≥ 2 ^ 255 then true else a > b

def slt (a b : UInt256) : UInt256 := fromBool (sltBool a b)

def sgt (a b : UInt256) : UInt256 := fromBool (sgtBool a b)

/-- The shift of a negative number fills with ones. -/
def sar (a b : UInt256) : UInt256 :=
  if sltBool b ⟨0⟩ then complement (complement b >>> a) else b >>> a

/-- The sign bit of a number with `a + 1` bytes is spread over the higher bits. -/
def signextend (a b : UInt256) : UInt256 :=
  if a.toNat ≤ 31 then
    let testBit := a * ⟨8⟩ + ⟨7⟩
    let signBit := ⟨1⟩ <<< testBit
    if b &&& signBit ≠ ⟨0⟩ then b ||| (ofNat UInt256.size - signBit)
    else b &&& (signBit - ⟨1⟩)
  else b

/-- Addition modulo a word; the sum itself is not reduced to 256 bits first. -/
def addMod (a b c : UInt256) : UInt256 :=
  if eq0 c then ⟨0⟩
  else ofNat <| Nat.mod (a.val.val + b.val.val) c.toNat

/-- Multiplication modulo a word; the product is not reduced to 256 bits first. -/
def mulMod (a b c : UInt256) : UInt256 :=
  if eq0 c then ⟨0⟩
  else ofNat <| Nat.mod (a.val.val * b.val.val) c.toNat

/-- Powers, modulo the word size. -/
def exp (a b : UInt256) : UInt256 := pow a b

def lt (a b : UInt256) : UInt256 := fromBool (a < b)

def gt (a b : UInt256) : UInt256 := fromBool (a > b)

def eq (a b : UInt256) : UInt256 := fromBool (a = b)

def isZero (a : UInt256) : UInt256 := fromBool (eq0 a)

end UInt256

/-- The literals of the language are machine words. -/
abbrev Literal := UInt256

/-- `2^160`, the number of account addresses. -/
def AccountAddress.size : Nat := 1461501637330902918203684832716283019655932542976

instance AccountAddress.neZero_size : NeZero AccountAddress.size where
  out := Nat.succ_ne_zero (AccountAddress.size - 1)

/-- The address of an account has 160 bits. -/
abbrev AccountAddress : Type := Fin AccountAddress.size

instance : Inhabited AccountAddress := ⟨Fin.ofNat _ 0⟩

/-- The address held in the low 160 bits of a word. -/
def AccountAddress.ofUInt256 (v : UInt256) : AccountAddress :=
  Fin.ofNat _ (v.val.val % AccountAddress.size)

end YulGasRules
