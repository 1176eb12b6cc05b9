import YulGasRules.Machine.Numbers
import YulGasRules.Yul.Denotation
import YulGasRules.Yul.Totality

/-!
# Arithmetic expressions

An arithmetic expression consists of literals, variables and arithmetic instructions.
On paper it stands for a number, of which the machine keeps a word after each instruction.
The interpreter comes to this word, in every state and every code, and leaves the state
as it was.
-/

namespace YulGasRules.Yul

open Fuel

/-- The number that an arithmetic instruction stands for.  Operands count as they are, or
in two's complement where the instruction is a signed one.  Dividing by zero gives zero,
and so does the remainder. -/
def PrimOp.number : PrimOp → List Literal → Option Int
  | .ADD, [a, b] => some ↑(a.toNat + b.toNat)
  | .MUL, [a, b] => some ↑(a.toNat * b.toNat)
  | .SUB, [a, b] => some (a.toNat - b.toNat)
  | .DIV, [a, b] => some ↑(a.toNat / b.toNat)
  | .SDIV, [a, b] => some (a.signed.tdiv b.signed)
  | .MOD, [a, b] => some ↑(if b = ⟨0⟩ then 0 else a.toNat % b.toNat)
  | .SMOD, [a, b] => some (if b = ⟨0⟩ then 0 else a.signed.tmod b.signed)
  | .ADDMOD, [a, b, c] => some ↑(if c = ⟨0⟩ then 0 else (a.toNat + b.toNat) % c.toNat)
  | .MULMOD, [a, b, c] => some ↑(if c = ⟨0⟩ then 0 else a.toNat * b.toNat % c.toNat)
  | .EXP, [a, b] => some ↑(a.toNat ^ b.toNat)
  | .SIGNEXTEND, [a, b] =>
      some (if a.toNat ≤ 31 then (b.toNat : Int).bmod (2 ^ (8 * a.toNat + 8)) else b.signed)
  | .LT, [a, b] => some (decide (a.toNat < b.toNat)).toNat
  | .GT, [a, b] => some (decide (b.toNat < a.toNat)).toNat
  | .SLT, [a, b] => some (decide (a.signed < b.signed)).toNat
  | .SGT, [a, b] => some (decide (b.signed < a.signed)).toNat
  | .EQ, [a, b] => some (decide (a = b)).toNat
  | .ISZERO, [a] => some (decide (a = ⟨0⟩)).toNat
  | .AND, [a, b] => some ↑(a.toNat &&& b.toNat)
  | .OR, [a, b] => some ↑(a.toNat ||| b.toNat)
  | .XOR, [a, b] => some ↑(a.toNat ^^^ b.toNat)
  | .NOT, [a] => some (-1 - a.toNat)
  | .BYTE, [a, b] =>
      some ↑(if a.toNat ≤ 31 then b.toNat / 2 ^ ((31 - a.toNat) * 8) % 2 ^ 8 else 0 : Nat)
  | .SHL, [a, b] => some ↑(b.toNat * 2 ^ a.toNat)
  | .SHR, [a, b] => some ↑(b.toNat / 2 ^ a.toNat)
  | .SAR, [a, b] => some (b.signed / 2 ^ a.toNat)
  | _, _ => none

section Instructions

variable {prim : PrimOp} {args : List Literal} {n : Int}

open UInt256 in
/-- An arithmetic instruction computes the word of its number. -/
theorem step_number [FFI] (value : prim.number args = some n) (state : State) :
    step prim state args = .ok (state, some (.wrap n)) := by
  simp only [PrimOp.number] at value
  split at value <;> cases value
  all_goals
    simp only [step, execUnOp, execBinOp, execTriOp, flip, add_eq_wrap, sub_eq_wrap,
      mul_eq_wrap, div_eq_wrap, sdiv_eq_wrap, mod_eq_wrap, smod_eq_wrap, addMod_eq_wrap,
      mulMod_eq_wrap, exp_eq_wrap, signextend_eq_wrap, lt_eq_wrap, gt_eq_wrap, slt_eq_wrap,
      sgt_eq_wrap, eq_eq_wrap, isZero_eq_wrap, land_eq_wrap, lor_eq_wrap, xor_eq_wrap,
      lnot_eq_wrap, byteAt_eq_wrap, shiftLeft_eq_wrap, shiftRight_eq_wrap, sar_eq_wrap]

theorem own_of_number (value : prim.number args = some n) :
    prim ∉ contractCalls ∧ prim ∉ staticViolations := by
  simp only [PrimOp.number] at value
  split at value <;> cases value <;> decide

end Instructions

/-! ## Values of expressions -/

mutual
/-- The word that an arithmetic expression stands for. -/
def Expr.value (state : State) : Expr → Option Literal
  | .Var id => some state[id]!
  | .Lit val => some val
  | .Call (.inl prim) args =>
      (valuesOf state args).bind fun vals => (prim.number vals).map UInt256.wrap
  | .Call (.inr _) _ => none

def valuesOf (state : State) : List Expr → Option (List Literal)
  | [] => some []
  | arg :: args => (arg.value state).bind fun val => (valuesOf state args).map (val :: ·)
end

section Meanings

variable [FFI] (codeOverride : Option YulContract)

/-- An instruction of the contract's own means its step. -/
theorem primMeaning_of_own {prim : PrimOp} (own : prim ∉ contractCalls) {state : State}
    (allowed : ¬(¬state.executionEnv.perm ∧ prim ∈ staticViolations)) (args : List Literal) :
    primMeaning prim (state, args) =
      (step prim state args).map fun output => (output.1, output.2.toList) := by
  apply Settles.meaning_eq
  use 1
  intro fuel enough
  cases fuel with
  | zero => omega
  | succ fuel => rw [runPrim, primCall, primCallWith_of_own own, if_neg allowed]

theorem primMeaning_of_number {prim : PrimOp} {args : List Literal} {n : Int}
    (value : prim.number args = some n) (state : State) :
    primMeaning prim (state, args) = .ok (state, [.wrap n]) := by
  obtain ⟨own, unguarded⟩ := own_of_number value
  rw [primMeaning_of_own own fun guarded => unguarded guarded.2, step_number value]
  rfl

/-- The expressions mean the values, and leave the state as it was. -/
abbrev Means (state : State) (args : List Expr) (vals : List Literal) : Prop :=
  List.Forall₂ (fun arg val => exprMeaning codeOverride arg state = .ok (state, val)) args vals

theorem argsMeaning_of_means {state : State} {args : List Expr} {vals : List Literal}
    (means : Means codeOverride state args vals) :
    argsMeaning codeOverride args state = .ok (state, vals) := by
  induction means with
  | nil => rw [argsMeaning_nil]
  | @cons arg val args vals head _ ih =>
      rw [argsMeaning_cons]
      simp only [head, ih, Except.bind, Except.map]

theorem operandsMeaning_of_means {state : State} {args : List Expr} {vals : List Literal}
    (means : Means codeOverride state args vals) :
    operandsMeaning codeOverride args state = .ok (state, vals) := by
  have reversed := argsMeaning_of_means codeOverride (List.forall₂_reverse_iff.mpr means)
  rw [operandsMeaning_eq]
  simp only [reversed, Except.map, List.reverse_reverse]

mutual
theorem exprMeaning_of_value {state : State} {val : Literal} :
    (expr : Expr) → expr.value state = some val →
      exprMeaning codeOverride expr state = .ok (state, val)
  | .Var id, value => by
      cases value
      rw [exprMeaning_var]
  | .Lit val, value => by
      cases value
      rw [exprMeaning_lit]
  | .Call (.inl prim) args, value => by
      simp only [Expr.value, Option.bind_eq_some_iff, Option.map_eq_some_iff] at value
      rcases value with ⟨vals, values, n, number, rfl⟩
      have operands := operandsMeaning_of_means codeOverride (means_of_values args values)
      rw [exprMeaning_prim]
      simp only [operands, Except.bind, primMeaning_of_number number, Except.map]
      rfl
  | .Call (.inr _) _, value => nomatch value

theorem means_of_values {state : State} {vals : List Literal} :
    (args : List Expr) → valuesOf state args = some vals → Means codeOverride state args vals
  | [], values => by
      cases values
      exact .nil
  | arg :: args, values => by
      simp only [valuesOf, Option.bind_eq_some_iff, Option.map_eq_some_iff] at values
      rcases values with ⟨val, head, rest, tail, rfl⟩
      exact .cons (exprMeaning_of_value arg head) (means_of_values args tail)
end

/-- With enough fuel, the interpreter comes to the word that an arithmetic expression
stands for. -/
theorem eval_arithmetic (expr : Expr) {state : State} {val : Literal}
    (value : expr.value state = some val) :
    ∃ N, ∀ n, N ≤ n → eval n expr codeOverride state = .ok (state, val) := by
  have settles := (growing_expr codeOverride expr).settles_meaning state
  rw [← exprMeaning, exprMeaning_of_value codeOverride expr value] at settles
  exact settles

end Meanings

/-- `sdiv(sub(0, 7), 2)` -/
def negativeQuotient : Expr :=
  .Call (.inl .SDIV) [.Call (.inl .SUB) [.Lit ⟨0⟩, .Lit ⟨7⟩], .Lit ⟨2⟩]

/-- The quotient is rounded towards zero. -/
theorem eval_negativeQuotient :
    ∃ N, ∀ n, N ≤ n →
      @eval ⟨fun _ => ByteArray.empty⟩ n negativeQuotient none default =
        .ok (default, .wrap (-3)) :=
  @eval_arithmetic ⟨fun _ => ByteArray.empty⟩ none negativeQuotient default _ rfl

end YulGasRules.Yul
