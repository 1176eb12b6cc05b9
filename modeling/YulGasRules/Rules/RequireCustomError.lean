import YulGasRules.Rules.Core
import YulGasRules.Yul.Monotone
import YulGasRules.Yul.Settings

/-!
# Replacing a `require` by a guarded revert

Both program forms compile to a conditional `if iszero(B) { body }` whose body
encodes the failure and ends in a `revert`.  Since `REVERT` discards its arguments,
two bodies that eventually revert are interchangeable.

The law is stated for an arbitrary set of states: it needs the bodies to revert
from these states only, provided that the guard does not lead out of the set.
The set of all states gives the law in which the guard is arbitrary.
-/

namespace YulGasRules.Law1

open Yul YulGasRules.Core Fuel

variable [FFI]

/-! ## The `revert` statement -/

/-- `revert(offset, size)` as a statement. -/
abbrev revertStmt (offset size : Expr) : Stmt :=
  .ExprStmtCall (.Call (.inl .REVERT) [offset, size])

theorem step_REVERT_reverts (s : Yul.State) (a b : UInt256) :
    step .REVERT s [a, b] = .error .Revert := rfl

theorem primCall_REVERT_reverts (fuel : Nat) (s : Yul.State) (a b : UInt256) :
    primCall (fuel + 1) s .REVERT [a, b] = .error .Revert := by
  rw [primCall_of_own (by decide) (by decide), step_REVERT_reverts]
  rfl

/-- `REVERT` reverts whatever its two arguments are. -/
theorem runPrim_revert (P : Yul.State → Prop) :
    Eventually (fun input => P input.1 ∧ input.2.length = 2) (runPrim .REVERT)
      (fun _ => False) (· = .Revert) := by
  apply Eventually.of_succ
  intro fuel input both
  rcases List.length_eq_two.mp both.2 with ⟨a, b, pair⟩
  rw [runPrim, pair, primCall_REVERT_reverts]
  rfl

section Settings

variable {codeOverride : Option YulContract} {P : PrimOp → Nat → Prop}
variable {D : YulFunctionName → FunctionDefinition → Prop} {I : Yul.State → Prop}
variable {E : Exception → Prop} {returns : Prop}

/-- How a block ends that ends in a `revert`: it reverts, unless it runs into an
exception of the setting.  If it reverts, then its calls of user functions return. -/
abbrev EndsReverting (E : Exception → Prop) (returns : Prop) (stmts : List Stmt)
    (exception : Exception) : Prop :=
  E exception ∨ (exception = .Revert ∧ (stmts.any Stmt.callsUser = true → returns))

theorem revert_ends {offset size : Expr}
    (operands : ∀ arg ∈ [offset, size], Setting.Evaluates codeOverride I E returns arg) :
    Eventually I (runStmt codeOverride (.Block [revertStmt offset size])) (fun _ => False)
      (EndsReverting E returns [revertStmt offset size]) := by
  have evaluated := Setting.evaluates_operands operands
  have reverts : Eventually
      (fun input => (I input.1 ∧ input.2.length = 2) ∧
        (anyCallsUser [offset, size] = true → returns))
      (runPrim .REVERT) (fun _ => False) (EndsReverting E returns [revertStmt offset size]) := by
    apply Eventually.assume
    intro returned
    apply (runPrim_revert I).mono_exceptional
    intro exception reverts
    refine .inr ⟨reverts, ?_⟩
    intro calls
    simp only [List.any_cons, List.any_nil, Bool.or_false] at calls
    exact returned calls
  rw [runStmt_block_cons, runStmt_exprStmt, runStmt_let_prim]
  refine Eventually.tick (Eventually.seq_of_raises (Eventually.tick ?_) _)
  apply (evaluated.mono_exceptional fun _ => .inl).seq
  exact reverts.framed (fun _ => id) fun _ _ _ => False.elim

/-- A straight-line block ahead of a `revert`. -/
theorem block_revert_ends (setting : Setting codeOverride P D I E returns)
    {R : List Stmt} {offset size : Expr}
    (statements : ∀ stmt ∈ R, StraightStmt P D stmt)
    (operands : ∀ arg ∈ [offset, size], StraightExpr P D arg) :
    Eventually I (runStmt codeOverride (.Block (R ++ [revertStmt offset size])))
      (fun _ => False) (EndsReverting E returns (R ++ [revertStmt offset size])) := by
  have block := Setting.block fun stmt member => setting.executes (statements stmt member)
  rw [runStmt_block_append]
  refine (block.mono_exceptional fun _ => .inl).seq (Eventually.lag _ (Eventually.assume ?_))
  intro returned
  refine (revert_ends fun arg member =>
    setting.evaluates (operands arg member)).mono_exceptional ?_
  intro exception ends
  apply ends.imp_right
  intro reverts
  use reverts.1
  intro calls
  rw [List.any_append, Bool.or_eq_true] at calls
  exact calls.elim returned reverts.2

end Settings

/-! ## Bodies that eventually revert -/

/-- A block body eventually reverts if, beyond some fuel threshold and uniformly
in the entry state, its evaluation yields the payload-free revert exception. -/
def EventuallyReverts (body : List Stmt) : Prop :=
  ∃ N, ∀ fuel, N ≤ fuel → ∀ s, exec fuel (.Block body) none s = .error .Revert

/-- The same for entry states in `P`. -/
def EventuallyRevertsOn (P : Yul.State → Prop) (body : List Stmt) : Prop :=
  ∃ N, ∀ fuel, N ≤ fuel → ∀ s, P s → exec fuel (.Block body) none s = .error .Revert

theorem eventuallyReverts_iff_everywhere (body : List Stmt) :
    EventuallyReverts body ↔ EventuallyRevertsOn (fun _ => True) body := by
  simp only [EventuallyReverts, EventuallyRevertsOn, forall_const]

theorem eventuallyRevertsOn_iff (P : Yul.State → Prop) (body : List Stmt) :
    EventuallyRevertsOn P body ↔
      Eventually P (runStmt none (.Block body)) (fun _ => False) (· = .Revert) := by
  simp only [EventuallyRevertsOn, Eventually, Ends.raises_iff]

/-- One amount of fuel with which every state in `P` reverts is enough. -/
theorem eventuallyRevertsOn_iff_exists (P : Yul.State → Prop) (body : List Stmt) :
    EventuallyRevertsOn P body ↔
      ∃ fuel, ∀ s, P s → exec fuel (.Block body) none s = .error .Revert := by
  rw [eventuallyRevertsOn_iff, (growing_stmt none (.Block body)).eventually_iff_exists nofun]
  simp only [Ends.raises_iff]

theorem EventuallyReverts.on {body : List Stmt} (reverts : EventuallyReverts body)
    (P : Yul.State → Prop) : EventuallyRevertsOn P body := by
  obtain ⟨N, beyond⟩ := reverts
  exact ⟨N, fun fuel enough s _ => beyond fuel enough s⟩

/-! ## The law -/

/-- Equivalence for distinct branch bodies on a set of states.  From a state in `P`
the guard `iszero(B)` leads to states in `I`, from which both bodies revert. -/
theorem require_custom_error_eventually_equiv_on (P I : Yul.State → Prop)
    {E : Exception → Prop} {B : Expr} {bodyR bodyS : List Stmt} (Q : List Stmt)
    (guard : Eventually P (runExpr none (.Call (.inl .ISZERO) [B]))
      (fun output => I output.1) E)
    (revertsR : EventuallyRevertsOn I bodyR) (revertsS : EventuallyRevertsOn I bodyS) :
    EventuallyObsEquivOn P
      ([.If (.Call (.inl .ISZERO) [B]) bodyR] ++ Q)
      ([.If (.Call (.inl .ISZERO) [B]) bodyS] ++ Q) := by
  rw [eventuallyRevertsOn_iff] at revertsR revertsS
  exact eventuallyObsEquivOn_of_agree
    (agree_if Q guard (EventuallyAgree.of_raises revertsR revertsS))

/-- Equivalence for distinct branch bodies.  Given branch bodies `bodyR` and
`bodyS`, a common guard `iszero(B)`, and a common continuation `Q`, the two programs
are eventually observationally equivalent if each body eventually reverts. -/
theorem require_custom_error_eventually_equiv_distinct_grounded
    (B : Expr) {bodyR bodyS : List Stmt} (Q : List Stmt)
    (revertsR : EventuallyReverts bodyR) (revertsS : EventuallyReverts bodyS) :
    EventuallyObsEquiv
      ([.If (.Call (.inl .ISZERO) [B]) bodyR] ++ Q)
      ([.If (.Call (.inl .ISZERO) [B]) bodyS] ++ Q) := by
  have guard := Eventually.trivial (fun _ => True) (runExpr none (.Call (.inl .ISZERO) [B]))
  exact EventuallyObsEquivOn.everywhere
    (require_custom_error_eventually_equiv_on (fun _ => True) (fun _ => True) Q guard
      (revertsR.on _) (revertsS.on _))

/-- The law state by state: the bodies need the same meaning where the guard leads to
them, and no common threshold. -/
theorem require_custom_error_eventually_equiv_pointwise (B : Expr) {bodyR bodyS : List Stmt}
    (Q : List Stmt)
    (same : ∀ s s' value, exprMeaning none (.Call (.inl .ISZERO) [B]) s = .ok (s', value) →
      value ≠ ⟨0⟩ → stmtMeaning none (.Block bodyR) s' = stmtMeaning none (.Block bodyS) s') :
    EventuallyObsEquiv
      ([.If (.Call (.inl .ISZERO) [B]) bodyR] ++ Q)
      ([.If (.Call (.inl .ISZERO) [B]) bodyS] ++ Q) := by
  apply eventuallyObsEquiv_of_meaning_eq
  have conditional : stmtMeaning none (.If (.Call (.inl .ISZERO) [B]) bodyR) =
      stmtMeaning none (.If (.Call (.inl .ISZERO) [B]) bodyS) := by
    simp only [stmtMeaning_if]
    funext s
    cases guard : exprMeaning none (.Call (.inl .ISZERO) [B]) s with
    | error exception => rfl
    | ok output =>
        by_cases taken : output.2 ≠ ⟨0⟩
        · simp only [Except.bind, same s output.1 output.2 guard taken]
        · simp only [Except.bind, taken, if_false]
  simp only [List.singleton_append, stmtMeaning_block_cons, conditional]

/-! ## Bodies that differ in the arguments of `revert` alone -/

/-- A `revert` of two literals spends six units of fuel. -/
theorem runStmt_revert_lits (codeOverride : Option YulContract) (a b : Literal) :
    runStmt codeOverride (revertStmt (.Lit a) (.Lit b)) =
      fun fuel _ => .error (if 5 < fuel then .Revert else .OutOfFuel) := by
  funext fuel s
  rw [runStmt_exprStmt, runStmt_let_prim]
  cases fuel with
  | zero => rfl
  | succ fuel =>
      have operands : runOperands codeOverride [.Lit a, .Lit b] fuel s =
          if 4 < fuel then .ok (s, [a, b]) else .error .OutOfFuel := by
        have lits := congrFun (congrFun (runArgs_lits codeOverride [b, a]) fuel) s
        simp only [List.map_cons, List.map_nil, List.length_cons, List.length_nil] at lits
        simp only [runOperands, framed, id, List.reverse_cons, List.reverse_nil,
          List.nil_append, List.singleton_append, lits]
        split <;> rfl
      simp only [tick, seq, operands]
      by_cases enough : 4 < fuel
      · rw [if_pos enough, if_pos (Nat.succ_lt_succ enough)]
        obtain ⟨rest, rfl⟩ := Nat.exists_eq_add_of_lt enough
        simp only [Except.bind, asBinding, framed, id, runPrim, primCall_REVERT_reverts,
          Except.map]
      · rw [if_neg enough, if_neg (mt Nat.lt_of_succ_lt_succ enough)]
        rfl

/-- Coincident branch bodies up to the arguments of `revert` give observationally
equivalent programs at every fuel value. -/
theorem require_custom_error_observationally_equiv (B : Expr) (enc P Q : List Stmt)
    (a₁ b₁ a₂ b₂ : Literal) :
    ObservationalEquivalence
      (P ++ [.If (.Call (.inl .ISZERO) [B]) (enc ++ [revertStmt (.Lit a₁) (.Lit b₁)])] ++ Q)
      (P ++ [.If (.Call (.inl .ISZERO) [B]) (enc ++ [revertStmt (.Lit a₂) (.Lit b₂)])] ++ Q) := by
  have same : runStmt none (.Block (P ++ [.If (.Call (.inl .ISZERO) [B])
        (enc ++ [revertStmt (.Lit a₁) (.Lit b₁)])] ++ Q)) =
      runStmt none (.Block (P ++ [.If (.Call (.inl .ISZERO) [B])
        (enc ++ [revertStmt (.Lit a₂) (.Lit b₂)])] ++ Q)) := by
    simp only [runStmt_block_append, runStmt_block_cons, runStmt_if, runStmt_revert_lits,
      List.length_append, List.length_cons]
  intro fuel s
  apply execTopLevel_of_exec_eq
  exact congrFun (congrFun same fuel) s

/-! ## Bodies with a straight-line prefix -/

/-- If a prefix `R` evaluates successfully, then `R ++ [revert(a, b)]` eventually
reverts. -/
theorem eventuallyReverts_of_runsOk {R : List Stmt} (a b : Literal) (runsOk : RunsOk R) :
    EventuallyReverts (R ++ [revertStmt (.Lit a) (.Lit b)]) := by
  rw [eventuallyReverts_iff_everywhere, eventuallyRevertsOn_iff, runStmt_block_append]
  have operands : ∀ arg ∈ [Expr.Lit a, Expr.Lit b],
      Setting.Evaluates none (fun _ => True) (fun _ => False) True arg := by
    intro arg member
    simp only [List.mem_cons, List.not_mem_nil, or_false] at member
    rcases member with rfl | rfl <;> exact (Setting.callFree none).evaluates_lit _
  apply (runsOk.eventually.mono_exceptional fun _ => False.elim).seq
  refine Eventually.lag _ ((revert_ends operands).mono_exceptional ?_)
  intro exception ends
  exact (ends.resolve_left id).1

/-- The single-conditional form with abstract straight-line bodies `R` and `S`. -/
theorem require_custom_error_single_if (B : Expr) {R S : List Stmt} (a₁ b₁ a₂ b₂ : Literal)
    (runsR : RunsOk R) (runsS : RunsOk S) :
    EventuallyObsEquiv
      [.If (.Call (.inl .ISZERO) [B]) (R ++ [revertStmt (.Lit a₁) (.Lit b₁)])]
      [.If (.Call (.inl .ISZERO) [B]) (S ++ [revertStmt (.Lit a₂) (.Lit b₂)])] :=
  require_custom_error_eventually_equiv_distinct_grounded B []
    (eventuallyReverts_of_runsOk a₁ b₁ runsR) (eventuallyReverts_of_runsOk a₂ b₂ runsS)

end YulGasRules.Law1
