import YulGasRules.Fuel.Meaning
import YulGasRules.Yul.Monotone

/-!
# The meaning of Yul code

Since the interpreter grows, expressions and statements have meanings that do not
mention fuel.  The equations below give the meaning of a piece of syntax by the
meanings of its parts.
-/

namespace YulGasRules.Yul

open Fuel

variable [FFI] (codeOverride : Option YulContract)

/-- What an expression comes to with enough fuel. -/
noncomputable abbrev exprMeaning (expr : Expr) : State → Outcome Literal :=
  meaning .OutOfFuel (runExpr codeOverride expr)

/-- What a statement comes to with enough fuel. -/
noncomputable abbrev stmtMeaning (stmt : Stmt) : State → Except Exception State :=
  meaning .OutOfFuel (runStmt codeOverride stmt)

/-- An empty block does nothing, whatever kind of state it is run in. -/
theorem stmtMeaning_block_nil : stmtMeaning codeOverride (.Block []) = .ok := by
  rw [stmtMeaning, runStmt_block_nil, (Growing.const _).meaning_tick, meaning_const]

/-- The rest of a block goes on from where its first statement ends. -/
theorem stmtMeaning_block_cons (stmt : Stmt) (stmts : List Stmt) :
    stmtMeaning codeOverride (.Block (stmt :: stmts)) = fun state =>
      (stmtMeaning codeOverride stmt state).bind
        (stmtMeaning codeOverride (.Block stmts)) := by
  have head := growing_stmt codeOverride stmt
  have rest := growing_stmt codeOverride (.Block stmts)
  rw [stmtMeaning, runStmt_block_cons, (head.seq rest).meaning_tick, head.meaning_seq rest]

/-- A block can be cut anywhere. -/
theorem stmtMeaning_block_append (stmts rest : List Stmt) :
    stmtMeaning codeOverride (.Block (stmts ++ rest)) = fun state =>
      (stmtMeaning codeOverride (.Block stmts) state).bind
        (stmtMeaning codeOverride (.Block rest)) := by
  have first := growing_stmt codeOverride (.Block stmts)
  have last := growing_stmt codeOverride (.Block rest)
  rw [stmtMeaning, runStmt_block_append, first.meaning_seq (last.lag stmts.length),
    last.meaning_lag]

/-- The body of a conditional goes on from the state that its condition leaves. -/
theorem stmtMeaning_if (cond : Expr) (body : List Stmt) :
    stmtMeaning codeOverride (.If cond body) = fun state =>
      (exprMeaning codeOverride cond state).bind fun output =>
        if output.2 ≠ ⟨0⟩ then stmtMeaning codeOverride (.Block body) output.1
        else .ok output.1 := by
  have guard := growing_expr codeOverride cond
  have taken : Growing .OutOfFuel (framed (Prod.fst : State × Literal → State)
      (fun _ state => state) (runStmt codeOverride (.Block body))) :=
    (growing_stmt codeOverride (.Block body)).framed
  have skipped : Growing Exception.OutOfFuel
      fun _ (output : State × Literal) => Except.ok output.1 := Growing.const _
  have branches := taken.branch (fun output => decide (output.2 ≠ ⟨0⟩)) skipped
  rw [stmtMeaning, runStmt_if, (guard.seq branches).meaning_tick, guard.meaning_seq branches,
    taken.meaning_branch _ skipped, meaning_const,
    (growing_stmt codeOverride (.Block body)).meaning_framed]
  funext state
  congr 1
  funext output
  by_cases zero : output.2 = ⟨0⟩
  · simp [zero]
  · simp only [zero, ne_eq, not_false_eq_true, decide_true, if_true]
    exact congrFun Except.map_id _

/-- A copy goes to the first of the variables alone. -/
theorem stmtMeaning_let_var (vars : List Identifier) (id : Identifier) :
    stmtMeaning codeOverride (.Let vars (some (.Var id))) =
      fun state => .ok (state.insert vars.head! state[id]!) := by
  rw [stmtMeaning, runStmt_let_var, (Growing.const _).meaning_tick, meaning_const]

end YulGasRules.Yul
