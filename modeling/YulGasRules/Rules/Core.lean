import YulGasRules.Fuel.Agreement
import YulGasRules.Yul.Meaning

/-!
# Equivalence of statement blocks

A transformation is sound if the two blocks it relates have the same observable
outcome.  Forms that spend different amounts of fuel are compared beyond a fuel
threshold only.  Agreement of the two blocks as computations is the way to such an
equivalence, and it passes through a shared prefix and through the branches of a
conditional.
-/

namespace YulGasRules.Core

open Yul Fuel
open Filter (atTop)

variable [FFI]

/-! ## Equivalence relations -/

/-- Two statement blocks give the same top-level result at every fuel. -/
def ObservationalEquivalence (stmts₁ stmts₂ : List Stmt) : Prop :=
  ∀ fuel s, execTopLevel fuel (.Block stmts₁) s = execTopLevel fuel (.Block stmts₂) s

/-- Gas-abstracted equivalence: same top-level result once fuel is large enough. -/
def EventuallyObsEquiv (stmts₁ stmts₂ : List Stmt) : Prop :=
  ∀ s, ∃ N, ∀ n, N ≤ n →
    execTopLevel n (.Block stmts₁) s = execTopLevel n (.Block stmts₂) s

/-- The same for the states in `P`, beyond one threshold for all of them. -/
def EventuallyObsEquivOn (P : Yul.State → Prop) (stmts₁ stmts₂ : List Stmt) : Prop :=
  ∃ N, ∀ n, N ≤ n → ∀ s, P s →
    execTopLevel n (.Block stmts₁) s = execTopLevel n (.Block stmts₂) s

/-- Observational equivalence implies its eventual form. -/
theorem eventually_of_observational {stmts₁ stmts₂ : List Stmt}
    (same : ObservationalEquivalence stmts₁ stmts₂) : EventuallyObsEquiv stmts₁ stmts₂ :=
  fun s => ⟨0, fun n _ => same n s⟩

theorem EventuallyObsEquivOn.everywhere {stmts₁ stmts₂ : List Stmt}
    (same : EventuallyObsEquivOn (fun _ => True) stmts₁ stmts₂) :
    EventuallyObsEquiv stmts₁ stmts₂ := by
  obtain ⟨N, beyond⟩ := same
  exact fun s => ⟨N, fun n enough => beyond n enough s trivial⟩

/-! ## From the evaluator to the observable semantics -/

theorem execTopLevel_of_exec_eq {fuel : Nat} {stmt₁ stmt₂ : Stmt} {s : Yul.State}
    (same : exec fuel stmt₁ none s = exec fuel stmt₂ none s) :
    execTopLevel fuel stmt₁ s = execTopLevel fuel stmt₂ s := by
  simp only [execTopLevel]
  rw [same]

/-- Blocks that eventually agree are eventually observationally equivalent. -/
theorem eventuallyObsEquivOn_of_agree {P : Yul.State → Prop} {stmts₁ stmts₂ : List Stmt}
    (agree : EventuallyAgree P (runStmt none (.Block stmts₁)) (runStmt none (.Block stmts₂))) :
    EventuallyObsEquivOn P stmts₁ stmts₂ := by
  obtain ⟨N, beyond⟩ := agree
  exact ⟨N, fun n enough s holds => execTopLevel_of_exec_eq (beyond n enough s holds)⟩

/-! ## Equivalence without fuel -/

/-- What an outcome shows of an evaluation that started in `s`. -/
def observe (s : Yul.State) : Except Exception Yul.State → Yul.State
  | .error .StaticModeViolation => s
  | .error .Revert => s
  | .error (.YulHalt final _) => final
  | .error _ => default
  | .ok final => final

theorem execTopLevel_eq_observe (fuel : Nat) (stmt : Stmt) (s : Yul.State) :
    execTopLevel fuel stmt s = observe s (exec fuel stmt none s) := by
  simp only [execTopLevel]
  rcases exec fuel stmt none s with exception | final
  · cases exception <;> rfl
  · rfl

/-- Beyond some fuel an evaluation comes to what the statement means. -/
theorem eventually_exec (stmt : Stmt) (s : Yul.State) :
    ∀ᶠ n in atTop, exec n stmt none s = stmtMeaning none stmt s :=
  settles_iff.mp ((growing_stmt none stmt).settles_meaning s)

theorem eventually_observe (stmt : Stmt) (s : Yul.State) :
    ∀ᶠ n in atTop, execTopLevel n stmt s = observe s (stmtMeaning none stmt s) := by
  filter_upwards [eventually_exec stmt s] with n means
  rw [execTopLevel_eq_observe, means]

/-- Gas-abstracted equivalence compares what the meanings of the blocks show. -/
theorem eventuallyObsEquiv_iff {stmts₁ stmts₂ : List Stmt} :
    EventuallyObsEquiv stmts₁ stmts₂ ↔ ∀ s,
      observe s (stmtMeaning none (.Block stmts₁) s) =
        observe s (stmtMeaning none (.Block stmts₂) s) := by
  apply forall_congr'
  intro s
  have observed := (eventually_observe (.Block stmts₁) s).and (eventually_observe (.Block stmts₂) s)
  rw [← Filter.eventually_atTop]
  constructor
  · intro agree
    rcases (agree.and observed).exists with ⟨n, same, shows₁, shows₂⟩
    rw [← shows₁, ← shows₂, same]
  · intro same
    filter_upwards [observed] with n shows
    rw [shows.1, shows.2, same]

theorem eventuallyObsEquiv_of_meaning_eq {stmts₁ stmts₂ : List Stmt}
    (same : stmtMeaning none (.Block stmts₁) = stmtMeaning none (.Block stmts₂)) :
    EventuallyObsEquiv stmts₁ stmts₂ := by
  rw [eventuallyObsEquiv_iff, same]
  exact fun _ => rfl

/-! ## Congruence -/

section Congruence

variable {codeOverride : Option YulContract} {P I : Yul.State → Prop} {E : Exception → Prop}

/-- Congruence of the conditional statement ahead of a continuation `k`.  The guard
establishes `I` for the branch it selects. -/
theorem agree_if {cond : Expr} {bodyM bodyE : List Stmt} (k : List Stmt)
    (established : Eventually P (runExpr codeOverride cond) (fun output => I output.1) E)
    (agree : EventuallyAgree I (runStmt codeOverride (.Block bodyM))
      (runStmt codeOverride (.Block bodyE))) :
    EventuallyAgree P (runStmt codeOverride (.Block (.If cond bodyM :: k)))
      (runStmt codeOverride (.Block (.If cond bodyE :: k))) := by
  rw [runStmt_block_cons, runStmt_block_cons, runStmt_if, runStmt_if]
  refine EventuallyAgree.tick (EventuallyAgree.seq_head (EventuallyAgree.tick ?_) _)
  refine EventuallyAgree.seq established (EventuallyAgree.branch _ ?_ _)
  exact agree.framed fun _ holds => holds

end Congruence

/-! ## Straight-line prefixes -/

/-- The straight-line hypothesis on a block `R`: beyond some fuel threshold, and
from every state, evaluation of `R` succeeds. -/
def RunsOk (R : List Stmt) : Prop :=
  ∃ N, ∀ fuel, N ≤ fuel → ∀ s, ∃ s', exec fuel (.Block R) none s = .ok s'

theorem RunsOk.eventually {R : List Stmt} (runsOk : RunsOk R) :
    Eventually (fun _ => True) (runStmt none (.Block R)) (fun _ => True) (fun _ => False) := by
  obtain ⟨N, beyond⟩ := runsOk
  use N
  intro fuel enough s _
  obtain ⟨s', succeeds⟩ := beyond fuel enough s
  rw [runStmt, succeeds]
  trivial

end YulGasRules.Core
