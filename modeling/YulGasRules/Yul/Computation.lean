import YulGasRules.Fuel.Judgment
import YulGasRules.Yul.Interpreter
import YulGasRules.Yul.Running

/-!
# The interpreter as fuel-indexed computations

Each kind of syntax denotes a computation on states.  The equations below write
the straight-line part of the interpreter with the combinators of fuel-indexed
computations, so that a judgment about a piece of syntax follows from judgments
about its parts by the rules of the combinators.
-/

namespace YulGasRules.Yul

open Fuel

/-! ## Adapters of results -/

/-- The helpers of the source act on results, and pass exceptions on. -/
theorem head'_eq_map (outcome : Outcome (List Literal)) :
    head' outcome = outcome.map fun output => (output.1, output.2.head!) := by
  cases outcome <;> rfl

theorem cons'_eq_map (arg : Literal) (outcome : Outcome (List Literal)) :
    cons' arg outcome = outcome.map fun output => (output.1, arg :: output.2) := by
  cases outcome <;> rfl

theorem reverse'_eq_map (outcome : Outcome (List Literal)) :
    reverse' outcome = outcome.map fun output => (output.1, output.2.reverse) := by
  cases outcome <;> rfl

theorem multifill'_eq_map (vars : List Identifier) (outcome : Outcome (List Literal)) :
    multifill' vars outcome = outcome.map fun output => output.1.multifill vars output.2 := by
  cases outcome <;> rfl

/-! ## Denotations of syntax -/

variable [FFI] (codeOverride : Option YulContract)

/-- An expression as a computation. -/
abbrev runExpr (expr : Expr) : Comp Exception State (State × Literal) :=
  fun fuel state => eval fuel expr codeOverride state

/-- Arguments, from the first to the last. -/
abbrev runArgs (args : List Expr) : Comp Exception State (State × List Literal) :=
  fun fuel state => evalArgs fuel args codeOverride state

/-- A statement as a computation. -/
abbrev runStmt (stmt : Stmt) : Comp Exception State State :=
  fun fuel state => exec fuel stmt codeOverride state

/-- A primitive operation applied to values already computed. -/
abbrev runPrim (prim : PrimOp) : Comp Exception (State × List Literal) (State × List Literal) :=
  fun fuel input => primCall fuel input.1 prim input.2

/-- A user function applied to values already computed. -/
abbrev runCall (f : YulFunctionName) :
    Comp Exception (State × List Literal) (State × List Literal) :=
  fun fuel input => call fuel input.2 f codeOverride input.1

/-- The operands of a call are evaluated from the last to the first. -/
def runOperands (args : List Expr) : Comp Exception State (State × List Literal) :=
  framed id (fun _ output => (output.1, output.2.reverse)) (runArgs codeOverride args.reverse)

/-- Use the first returned value as the value of an expression. -/
def asValue (comp : Comp Exception (State × List Literal) (State × List Literal)) :
    Comp Exception (State × List Literal) (State × Literal) :=
  framed id (fun _ output => (output.1, output.2.head!)) comp

/-- Bind the returned values to variables. -/
def asBinding (vars : List Identifier)
    (comp : Comp Exception (State × List Literal) (State × List Literal)) :
    Comp Exception (State × List Literal) State :=
  framed id (fun _ output => output.1.multifill vars output.2) comp

/-! ## Arguments and expressions -/

/-- The interpreter evaluates reversed arguments and reverses the values. -/
theorem reverse'_evalArgs (args : List Expr) (fuel : Nat) (state : State) :
    reverse' (evalArgs fuel args.reverse codeOverride state) =
      runOperands codeOverride args fuel state :=
  reverse'_eq_map _

theorem runArgs_nil :
    runArgs codeOverride [] = tick .OutOfFuel fun _ state => .ok (state, []) := by
  funext fuel state
  cases fuel <;> rfl

/-- The rest of the arguments takes a unit of fuel of its own. -/
theorem runArgs_cons (arg : Expr) (args : List Expr) :
    runArgs codeOverride (arg :: args) =
      tick .OutOfFuel (seq (runExpr codeOverride arg)
        (tick .OutOfFuel (framed Prod.fst
          (fun input output => (output.1, input.2 :: output.2))
          (runArgs codeOverride args)))) := by
  funext fuel state
  cases fuel with
  | zero => rfl
  | succ fuel =>
      simp only [runArgs, evalArgs, tick, seq, runExpr]
      cases eval fuel arg codeOverride state with
      | error exception => simp only [evalTail, Except.bind]
      | ok output =>
          cases fuel with
          | zero => rfl
          | succ fuel =>
              simp only [evalTail, cons'_eq_map, Except.bind, tick, framed]

theorem runExpr_var (id : Identifier) :
    runExpr codeOverride (.Var id) =
      tick .OutOfFuel fun _ state => .ok (state, state[id]!) := by
  funext fuel state
  cases fuel <;> rfl

theorem runExpr_lit (val : Literal) :
    runExpr codeOverride (.Lit val) = tick .OutOfFuel fun _ state => .ok (state, val) := by
  funext fuel state
  cases fuel <;> rfl

/-- Literals evaluate to themselves, each for two units of fuel. -/
theorem runArgs_lits (vals : List Literal) :
    runArgs codeOverride (vals.map .Lit) = fun fuel state =>
      if 2 * vals.length < fuel then .ok (state, vals) else .error .OutOfFuel := by
  induction vals with
  | nil =>
      funext fuel state
      rw [List.map_nil, runArgs_nil]
      cases fuel <;> rfl
  | cons val vals ih =>
      funext fuel state
      rw [List.map_cons, runArgs_cons, runExpr_lit, ih]
      match fuel with
      | 0 | 1 => rfl
      | fuel + 2 =>
          simp only [tick, seq, framed, Except.bind, List.length_cons]
          by_cases enough : 2 * vals.length < fuel
          · rw [if_pos enough, if_pos (by omega)]
            rfl
          · rw [if_neg enough, if_neg (by omega)]
            rfl

theorem runExpr_prim (prim : PrimOp) (args : List Expr) :
    runExpr codeOverride (.Call (.inl prim) args) =
      tick .OutOfFuel (seq (runOperands codeOverride args) (asValue (runPrim prim))) := by
  funext fuel state
  cases fuel with
  | zero => rfl
  | succ fuel =>
      simp only [runExpr, eval, reverse'_evalArgs, tick, seq]
      cases runOperands codeOverride args fuel state with
      | error exception => rfl
      | ok output => exact head'_eq_map _

/-- A call of a user function takes a unit more than one of an operation. -/
theorem runExpr_call (f : YulFunctionName) (args : List Expr) :
    runExpr codeOverride (.Call (.inr f) args) =
      tick .OutOfFuel (seq (runOperands codeOverride args)
        (tick .OutOfFuel (asValue (runCall codeOverride f)))) := by
  funext fuel state
  cases fuel with
  | zero => rfl
  | succ fuel =>
      simp only [runExpr, eval, reverse'_evalArgs, tick, seq]
      cases runOperands codeOverride args fuel state with
      | error exception => simp only [evalCall, Except.bind]
      | ok output =>
          cases fuel with
          | zero => rfl
          | succ fuel => exact head'_eq_map _

/-! ## Statements -/

theorem runStmt_block_nil :
    runStmt codeOverride (.Block []) = tick .OutOfFuel fun _ state => .ok state := by
  funext fuel state
  cases fuel <;> rfl

/-- A block runs its first statement and then the block of the others. -/
theorem runStmt_block_cons (stmt : Stmt) (stmts : List Stmt) :
    runStmt codeOverride (.Block (stmt :: stmts)) =
      tick .OutOfFuel (seq (runStmt codeOverride stmt)
        (runStmt codeOverride (.Block stmts))) := by
  funext fuel state
  cases fuel with
  | zero => rfl
  | succ fuel =>
      simp only [runStmt, exec, tick, seq]
      cases exec fuel stmt codeOverride state <;> rfl

/-- Within a block, a statement leaves a unit of fuel less to those after it. -/
theorem runStmt_block_append (stmts rest : List Stmt) :
    runStmt codeOverride (.Block (stmts ++ rest)) =
      seq (runStmt codeOverride (.Block stmts))
        (lag stmts.length (runStmt codeOverride (.Block rest))) := by
  induction stmts with
  | nil =>
      funext fuel state
      cases fuel <;> rfl
  | cons stmt stmts ih =>
      rw [List.cons_append, runStmt_block_cons, runStmt_block_cons, ih]
      funext fuel state
      cases fuel with
      | zero => rfl
      | succ fuel =>
          simp only [tick, seq, lag, List.length_cons, Nat.add_sub_add_right]
          cases runStmt codeOverride stmt fuel state <;> rfl

/-- The condition is evaluated once, and its state is kept. -/
theorem runStmt_if (cond : Expr) (body : List Stmt) :
    runStmt codeOverride (.If cond body) =
      tick .OutOfFuel (seq (runExpr codeOverride cond)
        (branch (fun output => output.2 ≠ ⟨0⟩)
          (framed Prod.fst (fun _ state => state) (runStmt codeOverride (.Block body)))
          (fun _ output => .ok output.1))) := by
  funext fuel state
  cases fuel with
  | zero => rfl
  | succ fuel =>
      simp only [runStmt, exec, tick, seq, runExpr]
      cases eval fuel cond codeOverride state with
      | error exception => rfl
      | ok output =>
          simp only [Except.bind, branch, framed, runStmt]
          by_cases zero : output.2 = ⟨0⟩
          · simp [zero]
          · simp only [zero, ne_eq, not_false_eq_true, decide_true, if_true]
            cases exec fuel (.Block body) codeOverride output.1 <;> rfl

theorem runStmt_declare (vars : List Identifier) :
    runStmt codeOverride (.Let vars none) = tick .OutOfFuel fun _ state =>
      .ok (vars.foldr (fun var state => state.insert var ⟨0⟩) state) := by
  funext fuel state
  cases fuel <;> rfl

/-- Only the first name is bound, to a variable or a literal. -/
theorem runStmt_let_var (vars : List Identifier) (id : Identifier) :
    runStmt codeOverride (.Let vars (some (.Var id))) = tick .OutOfFuel fun _ state =>
      .ok (state.insert vars.head! state[id]!) := by
  funext fuel state
  cases fuel <;> rfl

theorem runStmt_let_lit (vars : List Identifier) (val : Literal) :
    runStmt codeOverride (.Let vars (some (.Lit val))) = tick .OutOfFuel fun _ state =>
      .ok (state.insert vars.head! val) := by
  funext fuel state
  cases fuel <;> rfl

theorem runStmt_let_prim (vars : List Identifier) (prim : PrimOp) (args : List Expr) :
    runStmt codeOverride (.Let vars (some (.Call (.inl prim) args))) =
      tick .OutOfFuel (seq (runOperands codeOverride args)
        (asBinding vars (runPrim prim))) := by
  funext fuel state
  cases fuel with
  | zero => rfl
  | succ fuel =>
      simp only [runStmt, exec, reverse'_evalArgs, tick, seq]
      cases runOperands codeOverride args fuel state with
      | error exception => rfl
      | ok output => exact multifill'_eq_map _ _

/-- All results are bound, to as many names as there are. -/
theorem runStmt_let_call (vars : List Identifier) (f : YulFunctionName) (args : List Expr) :
    runStmt codeOverride (.Let vars (some (.Call (.inr f) args))) =
      tick .OutOfFuel (seq (runOperands codeOverride args)
        (tick .OutOfFuel (asBinding vars (runCall codeOverride f)))) := by
  funext fuel state
  cases fuel with
  | zero => rfl
  | succ fuel =>
      simp only [runStmt, exec, reverse'_evalArgs, tick, seq]
      cases runOperands codeOverride args fuel state with
      | error exception => simp only [execCall, Except.bind]
      | ok output =>
          cases fuel with
          | zero => rfl
          | succ fuel => exact multifill'_eq_map _ _

/-- A call statement is a binding of no variables. -/
theorem runStmt_exprStmt (f : PrimOp ⊕ YulFunctionName) (args : List Expr) :
    runStmt codeOverride (.ExprStmtCall (.Call f args)) =
      runStmt codeOverride (.Let [] (some (.Call f args))) := by
  funext fuel state
  cases fuel with
  | zero => rfl
  | succ fuel => cases f <;> rfl

/-! ## Calls of user functions -/

/-- The state in which a function body starts. -/
def enterCall (definition : FunctionDefinition) (input : State × List Literal) : State :=
  (input.1.initcall definition.params input.2).mkOk

/-- The caller's state and the returned values when a function body ends. -/
def leaveCall (definition : FunctionDefinition) (input : State × List Literal)
    (final : State) : State × List Literal :=
  ((final.reviveJump.overwrite? input.1).setStore input.1, definition.rets.map final.lookup!)

/-- A call of a function that the running code defines enters its body. -/
theorem runCall_of_running {f : YulFunctionName} {definition : FunctionDefinition}
    {code : YulContract} (fuel : Nat) (input : State × List Literal)
    (running : input.1.runningCode = some code)
    (found : (codeOverride.getD code).functions.lookup f = some definition) :
    runCall codeOverride f fuel input =
      tick .OutOfFuel (framed (enterCall definition) (leaveCall definition)
        (runStmt codeOverride (.Block definition.body))) fuel input := by
  rw [runningCode_eq_lookup] at running
  obtain ⟨account, present, holds⟩ := Option.map_eq_some_iff.mp running
  cases fuel with
  | zero => rfl
  | succ fuel =>
      simp only [runCall, call, present, resolve, holds, found, tick, framed, runStmt, enterCall]
      cases exec fuel (.Block definition.body) codeOverride
        (input.1.initcall definition.params input.2).mkOk <;> rfl

/-- A function that the running contract does not define cannot be called. -/
theorem runCall_of_undefined {f : YulFunctionName} {code : YulContract} (fuel : Nat)
    (input : State × List Literal) (running : input.1.runningCode = some code)
    (undefined : (codeOverride.getD code).functions.lookup f = none) :
    runCall codeOverride f fuel input =
      tick .OutOfFuel (fun _ _ => .error (.MissingContractFunction f)) fuel input := by
  rw [runningCode_eq_lookup] at running
  obtain ⟨account, present, holds⟩ := Option.map_eq_some_iff.mp running
  cases fuel with
  | zero => rfl
  | succ fuel =>
      simp only [runCall, call, present, resolve, holds, undefined, tick, Option.getD_some]

/-- Without an account for the running contract every call fails. -/
theorem runCall_of_absent (f : YulFunctionName) (fuel : Nat)
    (input : State × List Literal) (absent : input.1.runningCode = none) :
    runCall codeOverride f fuel input =
      tick .OutOfFuel (fun _ input =>
        .error (.MissingContract s!"{input.1.executionEnv.codeOwner}")) fuel input := by
  rw [runningCode_eq_lookup] at absent
  have missing := Option.map_eq_none_iff.mp absent
  cases fuel with
  | zero => rfl
  | succ fuel => simp only [runCall, call, missing, tick]

end YulGasRules.Yul
