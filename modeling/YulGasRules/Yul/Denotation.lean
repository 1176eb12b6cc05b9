import YulGasRules.Yul.Meaning
import YulGasRules.Yul.Requests

/-!
# The meaning of every construct

Equations that give the meaning of each piece of syntax by the meanings of its parts,
and the meaning of an operation or of a call by the meaning of the code that it runs.
Together they make up a semantics without fuel.  A loop is a fixed point of its equation,
as is a recursive function.
-/

namespace YulGasRules.Yul

open Fuel
open Filter (atTop)

variable [FFI] (codeOverride : Option YulContract)

/-! ## Growth -/

/-- More fuel changes no outcome but an exhausted one. -/
theorem growing_args (args : List Expr) : Growing .OutOfFuel (runArgs codeOverride args) :=
  fun fuel => (grows fuel).args codeOverride args

theorem growing_operands (args : List Expr) :
    Growing .OutOfFuel (runOperands codeOverride args) :=
  (growing_args codeOverride args.reverse).framed

theorem growing_prim (prim : PrimOp) : Growing .OutOfFuel (runPrim prim) :=
  fun fuel => (grows fuel).prim prim

theorem growing_call (f : YulFunctionName) : Growing .OutOfFuel (runCall codeOverride f) :=
  fun fuel => (grows fuel).call codeOverride f

theorem growing_dispatcher : Growing .OutOfFuel (runDispatcher codeOverride) :=
  fun fuel => (grows fuel).dispatcher codeOverride

/-! ## Meanings -/

/-- The meaning of arguments, from the first to the last. -/
noncomputable abbrev argsMeaning (args : List Expr) : State → Outcome (List Literal) :=
  meaning .OutOfFuel (runArgs codeOverride args)

/-- The meaning of operands, from the last to the first. -/
noncomputable abbrev operandsMeaning (args : List Expr) : State → Outcome (List Literal) :=
  meaning .OutOfFuel (runOperands codeOverride args)

/-- The meaning of an operation on the values of its operands. -/
noncomputable abbrev primMeaning (prim : PrimOp) :
    State × List Literal → Outcome (List Literal) :=
  meaning .OutOfFuel (runPrim prim)

/-- The meaning of a call of a user function. -/
noncomputable abbrev callMeaning (f : YulFunctionName) :
    State × List Literal → Outcome (List Literal) :=
  meaning .OutOfFuel (runCall codeOverride f)

/-- What a contract that is called does. -/
noncomputable abbrev dispatcherMeaning : State → Outcome (List Literal) :=
  meaning .OutOfFuel (runDispatcher codeOverride)

section Adapters

omit [FFI]

variable {σ α : Type} {comp other : Comp Exception σ α}

/-- Computations with the same outcomes from a state mean the same there. -/
theorem meaning_congr {state : σ} (growing : Growing .OutOfFuel other)
    (same : ∀ fuel, comp fuel state = other fuel state) :
    meaning .OutOfFuel comp state = meaning .OutOfFuel other state := by
  rcases growing.settles_meaning state with ⟨threshold, means⟩
  apply Settles.meaning_eq
  use threshold
  intro fuel enough
  rw [same fuel, means fuel enough]

end Adapters

/-! ## Operands -/

theorem argsMeaning_nil : argsMeaning codeOverride [] = fun state => .ok (state, []) := by
  rw [argsMeaning, runArgs_nil, (Growing.const _).meaning_tick, meaning_const]

/-- Arguments are evaluated one after the other, each in the state that the one before has
left. -/
theorem argsMeaning_cons (arg : Expr) (args : List Expr) :
    argsMeaning codeOverride (arg :: args) = fun state =>
      (exprMeaning codeOverride arg state).bind fun input =>
        (argsMeaning codeOverride args input.1).map fun output =>
          (output.1, input.2 :: output.2) := by
  have head := growing_expr codeOverride arg
  have tail := growing_args codeOverride args
  have framed : Growing .OutOfFuel (framed (Prod.fst : State × Literal → State)
      (fun input output => (output.1, input.2 :: output.2)) (runArgs codeOverride args)) :=
    tail.framed
  rw [argsMeaning, runArgs_cons, (head.seq framed.tick).meaning_tick,
    head.meaning_seq framed.tick, framed.meaning_tick, tail.meaning_framed]

/-- The last operand comes first. -/
theorem operandsMeaning_eq (args : List Expr) :
    operandsMeaning codeOverride args = fun state =>
      (argsMeaning codeOverride args.reverse state).map fun output =>
        (output.1, output.2.reverse) := by
  rw [operandsMeaning, runOperands, (growing_args codeOverride args.reverse).meaning_framed]
  rfl

theorem argsMeaning_append_singleton (args : List Expr) (last : Expr) (state : State) :
    argsMeaning codeOverride (args ++ [last]) state =
      (argsMeaning codeOverride args state).bind fun input =>
        (exprMeaning codeOverride last input.1).map fun output =>
          (output.1, input.2 ++ [output.2]) := by
  induction args generalizing state with
  | nil =>
      simp only [List.nil_append, argsMeaning_cons, argsMeaning_nil, Except.bind]
      cases exprMeaning codeOverride last state <;> rfl
  | cons arg args ih =>
      simp only [List.cons_append, argsMeaning_cons]
      cases exprMeaning codeOverride arg state with
      | error exception => rfl
      | ok head =>
          simp only [Except.bind, ih]
          cases argsMeaning codeOverride args head.1 with
          | error exception => rfl
          | ok input =>
              simp only [Except.map]
              cases exprMeaning codeOverride last input.1 <;> rfl

/-- Operands are evaluated from the last to the first. -/
theorem operandsMeaning_cons (arg : Expr) (args : List Expr) (state : State) :
    operandsMeaning codeOverride (arg :: args) state =
      (operandsMeaning codeOverride args state).bind fun input =>
        (exprMeaning codeOverride arg input.1).map fun output =>
          (output.1, output.2 :: input.2) := by
  simp only [operandsMeaning_eq, List.reverse_cons, argsMeaning_append_singleton]
  cases argsMeaning codeOverride args.reverse state with
  | error exception => rfl
  | ok input =>
      simp only [Except.bind, Except.map]
      cases exprMeaning codeOverride arg input.1 with
      | error exception => rfl
      | ok output =>
          simp only [List.reverse_append, List.reverse_singleton, List.singleton_append]

/-- Operands, then something that means a function of them: a call in any position. -/
theorem meaning_applied {α : Type} (args : List Expr)
    {comp : Comp Exception (State × List Literal) α} (growing : Growing .OutOfFuel comp) :
    meaning .OutOfFuel (tick .OutOfFuel (seq (runOperands codeOverride args) comp)) =
      fun state => (operandsMeaning codeOverride args state).bind (meaning .OutOfFuel comp) := by
  have operands := growing_operands codeOverride args
  rw [(operands.seq growing).meaning_tick, operands.meaning_seq growing]

/-! ## Expressions -/

theorem exprMeaning_var (id : Identifier) :
    exprMeaning codeOverride (.Var id) = fun state => .ok (state, state[id]!) := by
  rw [exprMeaning, runExpr_var, (Growing.const _).meaning_tick, meaning_const]

theorem exprMeaning_lit (val : Literal) :
    exprMeaning codeOverride (.Lit val) = fun state => .ok (state, val) := by
  rw [exprMeaning, runExpr_lit, (Growing.const _).meaning_tick, meaning_const]

/-- An operation in an expression means its first result. -/
theorem exprMeaning_prim (prim : PrimOp) (args : List Expr) :
    exprMeaning codeOverride (.Call (.inl prim) args) = fun state =>
      (operandsMeaning codeOverride args state).bind fun input =>
        (primMeaning prim input).map fun output => (output.1, output.2.head!) := by
  have growing := growing_prim prim
  have valued : Growing .OutOfFuel (asValue (runPrim prim)) := growing.framed
  rw [exprMeaning, runExpr_prim, meaning_applied codeOverride args valued, asValue,
    growing.meaning_framed]
  rfl

theorem exprMeaning_call (f : YulFunctionName) (args : List Expr) :
    exprMeaning codeOverride (.Call (.inr f) args) = fun state =>
      (operandsMeaning codeOverride args state).bind fun input =>
        (callMeaning codeOverride f input).map fun output => (output.1, output.2.head!) := by
  have growing := growing_call codeOverride f
  have valued : Growing .OutOfFuel (asValue (runCall codeOverride f)) := growing.framed
  rw [exprMeaning, runExpr_call, meaning_applied codeOverride args valued.tick,
    valued.meaning_tick, asValue, growing.meaning_framed]
  rfl

/-- What an instruction or a function means. -/
noncomputable def appliedMeaning :
    PrimOp ⊕ YulFunctionName → State × List Literal → Outcome (List Literal)
  | .inl prim => primMeaning prim
  | .inr f => callMeaning codeOverride f

/-- Operations and user functions are called alike. -/
theorem exprMeaning_applied (f : PrimOp ⊕ YulFunctionName) (args : List Expr) :
    exprMeaning codeOverride (.Call f args) = fun state =>
      (operandsMeaning codeOverride args state).bind fun input =>
        (appliedMeaning codeOverride f input).map fun output => (output.1, output.2.head!) := by
  cases f with
  | inl prim => exact exprMeaning_prim codeOverride prim args
  | inr f => exact exprMeaning_call codeOverride f args

/-! ## Statements -/

/-- A declaration without a value starts at zero. -/
theorem stmtMeaning_declare (vars : List Identifier) :
    stmtMeaning codeOverride (.Let vars none) = fun state =>
      .ok (vars.foldr (fun var state => state.insert var ⟨0⟩) state) := by
  rw [stmtMeaning, runStmt_declare, (Growing.const _).meaning_tick, meaning_const]

theorem stmtMeaning_let_lit (vars : List Identifier) (val : Literal) :
    stmtMeaning codeOverride (.Let vars (some (.Lit val))) =
      fun state => .ok (state.insert vars.head! val) := by
  rw [stmtMeaning, runStmt_let_lit, (Growing.const _).meaning_tick, meaning_const]

theorem stmtMeaning_let_prim (vars : List Identifier) (prim : PrimOp) (args : List Expr) :
    stmtMeaning codeOverride (.Let vars (some (.Call (.inl prim) args))) = fun state =>
      (operandsMeaning codeOverride args state).bind fun input =>
        (primMeaning prim input).map fun output => output.1.multifill vars output.2 := by
  have growing := growing_prim prim
  have binding : Growing .OutOfFuel (asBinding vars (runPrim prim)) := growing.framed
  rw [stmtMeaning, runStmt_let_prim, meaning_applied codeOverride args binding, asBinding,
    growing.meaning_framed]
  rfl

theorem stmtMeaning_let_call (vars : List Identifier) (f : YulFunctionName)
    (args : List Expr) :
    stmtMeaning codeOverride (.Let vars (some (.Call (.inr f) args))) = fun state =>
      (operandsMeaning codeOverride args state).bind fun input =>
        (callMeaning codeOverride f input).map fun output =>
          output.1.multifill vars output.2 := by
  have growing := growing_call codeOverride f
  have binding : Growing .OutOfFuel (asBinding vars (runCall codeOverride f)) :=
    growing.framed
  rw [stmtMeaning, runStmt_let_call, meaning_applied codeOverride args binding.tick,
    binding.meaning_tick, asBinding, growing.meaning_framed]
  rfl

/-- A declaration binds all results of a call. -/
theorem stmtMeaning_let_applied (vars : List Identifier) (f : PrimOp ⊕ YulFunctionName)
    (args : List Expr) :
    stmtMeaning codeOverride (.Let vars (some (.Call f args))) = fun state =>
      (operandsMeaning codeOverride args state).bind fun input =>
        (appliedMeaning codeOverride f input).map fun output =>
          output.1.multifill vars output.2 := by
  cases f with
  | inl prim => exact stmtMeaning_let_prim codeOverride vars prim args
  | inr f => exact stmtMeaning_let_call codeOverride vars f args

/-- A call statement is a binding of no variables. -/
theorem stmtMeaning_exprStmt (f : PrimOp ⊕ YulFunctionName) (args : List Expr) :
    stmtMeaning codeOverride (.ExprStmtCall (.Call f args)) =
      stmtMeaning codeOverride (.Let [] (some (.Call f args))) := by
  rw [stmtMeaning, runStmt_exprStmt]

/-- Only calls stand as statements. -/
theorem runStmt_invalid {expr : Expr} (invalid : ∀ f args, expr ≠ .Call f args) :
    runStmt codeOverride (.ExprStmtCall expr) =
      tick .OutOfFuel fun _ _ => .error .InvalidExpression := by
  funext fuel state
  cases expr with
  | Call f args => exact (invalid f args rfl).elim
  | Var id => cases fuel <;> rfl
  | Lit val => cases fuel <;> rfl

/-- Only a call may stand as a statement. -/
theorem stmtMeaning_invalid {expr : Expr} (invalid : ∀ f args, expr ≠ .Call f args) :
    stmtMeaning codeOverride (.ExprStmtCall expr) = fun _ => .error .InvalidExpression := by
  rw [stmtMeaning, runStmt_invalid codeOverride invalid, (Growing.const _).meaning_tick,
    meaning_const]

theorem runStmt_continue : runStmt codeOverride .Continue =
    tick .OutOfFuel fun _ state => .ok state.setContinue := by
  funext fuel state
  cases fuel <;> rfl

theorem runStmt_break : runStmt codeOverride .Break =
    tick .OutOfFuel fun _ state => .ok state.setBreak := by
  funext fuel state
  cases fuel <;> rfl

theorem runStmt_leave : runStmt codeOverride .Leave =
    tick .OutOfFuel fun _ state => .ok state.setLeave := by
  funext fuel state
  cases fuel <;> rfl

/-- A jump is pending from then on. -/
theorem stmtMeaning_continue :
    stmtMeaning codeOverride .Continue = fun state => .ok state.setContinue := by
  rw [stmtMeaning, runStmt_continue, (Growing.const _).meaning_tick, meaning_const]

theorem stmtMeaning_break :
    stmtMeaning codeOverride .Break = fun state => .ok state.setBreak := by
  rw [stmtMeaning, runStmt_break, (Growing.const _).meaning_tick, meaning_const]

theorem stmtMeaning_leave :
    stmtMeaning codeOverride .Leave = fun state => .ok state.setLeave := by
  rw [stmtMeaning, runStmt_leave, (Growing.const _).meaning_tick, meaning_const]

/-! ### Switches -/

/-- The outcomes that the cases of a `switch` mean. -/
noncomputable def casesMeaning (branches : List (Literal × List Stmt)) (state : State) :
    List (Literal × Except Exception State) :=
  branches.map fun branch => (branch.1, stmtMeaning codeOverride (.Block branch.2) state)

/-- The branches of a switch are all run, and come to what they mean. -/
theorem eventually_cases (branches : List (Literal × List Stmt)) (state : State) :
    ∀ᶠ fuel in atTop, execSwitchCases fuel codeOverride state branches =
      .ok (casesMeaning codeOverride branches state) := by
  induction branches with
  | nil =>
      apply Filter.Eventually.of_forall
      intro fuel
      cases fuel <;> rfl
  | cons branch branches ih =>
      rcases branch with ⟨val, stmts⟩
      have head := settles_iff.mp
        ((growing_stmt codeOverride (.Block stmts)).settles_meaning state)
      rw [← Filter.map_add_atTop_eq_nat 1, Filter.eventually_map]
      filter_upwards [head, ih] with fuel means each
      rw [execSwitchCases_cons, each, ← runStmt, means]
      rfl

/-- All cases have a meaning, the default one included, and a failure of the latter
counts. -/
theorem stmtMeaning_switch (cond : Expr) (branches : List (Literal × List Stmt))
    (default' : List Stmt) :
    stmtMeaning codeOverride (.Switch cond branches default') = fun state =>
      (exprMeaning codeOverride cond state).bind fun output =>
        (stmtMeaning codeOverride (.Block default') output.1).bind fun after =>
          selectCase output.2 (.ok after) (casesMeaning codeOverride branches output.1) := by
  funext state
  apply Settles.meaning_eq
  have selector := (growing_expr codeOverride cond).settles_meaning state
  have selection (output : State × Literal) :
      Settles
        (fun fuel (output : State × Literal) =>
          (execSwitchCases fuel codeOverride output.1 branches).bind fun outcomes =>
            (runStmt codeOverride (.Block default') fuel output.1).bind fun after =>
              selectCase output.2 (.ok after) outcomes)
        output
        ((stmtMeaning codeOverride (.Block default') output.1).bind fun after =>
          selectCase output.2 (.ok after) (casesMeaning codeOverride branches output.1)) := by
    have otherwise := (growing_stmt codeOverride (.Block default')).settles_meaning output.1
    rw [settles_iff] at otherwise ⊢
    filter_upwards [eventually_cases codeOverride branches output.1, otherwise] with
      fuel each means
    rw [each]
    exact congrArg (Except.bind · fun after =>
      selectCase output.2 (.ok after) (casesMeaning codeOverride branches output.1)) means
  rw [settles_iff, ← Filter.map_add_atTop_eq_nat 1, Filter.eventually_map]
  filter_upwards [settles_iff.mp (selector.seq selection)] with fuel means
  rw [runStmt, exec_switch]
  exact means

/-! ### Loops -/

/-- What a loop means once its body has ended normally. -/
noncomputable def nextMeaning (cond : Expr) (post body : List Stmt) (before revived : State) :
    Except Exception State :=
  (stmtMeaning codeOverride (.Block post) revived).bind fun next =>
    (stmtMeaning codeOverride (.For cond post body) (next.overwrite? before)).map
      fun last => last.overwrite? before

/-- What a loop means after its body. -/
noncomputable def afterMeaning (cond : Expr) (post body : List Stmt) (before after : State) :
    Except Exception State :=
  match after with
  | .OutOfFuel => .ok (after.overwrite? before)
  | .Checkpoint (.Break _ _) => .ok (after.reviveJump.overwrite? before)
  | .Checkpoint (.Leave _ _) => .ok (after.overwrite? before)
  | _ => nextMeaning codeOverride cond post body before after.reviveJump

/-- With enough fuel the rest of a loop comes to what it means. -/
theorem settles_next (cond : Expr) (post body : List Stmt) (before revived : State) :
    ∀ᶠ fuel in atTop, nextIteration codeOverride cond post body fuel before revived =
      nextMeaning codeOverride cond post body before revived := by
  have posted := (growing_stmt codeOverride (.Block post)).settles_meaning revived
  have again (next : State) :
      Settles
        (framed (fun next : State => next.overwrite? before)
          (fun _ last => last.overwrite? before)
          (runStmt codeOverride (.For cond post body)))
        next
        ((stmtMeaning codeOverride (.For cond post body) (next.overwrite? before)).map
          fun last => last.overwrite? before) :=
    ((growing_stmt codeOverride (.For cond post body)).settles_meaning _).framed
  exact settles_iff.mp (posted.seq again)

theorem settles_after (cond : Expr) (post body : List Stmt) (before after : State) :
    Settles (fun fuel after => afterBody codeOverride cond post body fuel before after) after
      (afterMeaning codeOverride cond post body before after) := by
  have proceed := settles_next codeOverride cond post body before
  rw [settles_iff]
  cases after with
  | Ok shared store => exact proceed _
  | OutOfFuel => exact .of_forall fun _ => rfl
  | Checkpoint jump =>
      cases jump with
      | Continue shared store => exact proceed _
      | Break shared store => exact .of_forall fun _ => rfl
      | Leave shared store => exact .of_forall fun _ => rfl

/-- A loop means its condition, its body and what comes after. -/
theorem stmtMeaning_for (cond : Expr) (post body : List Stmt) :
    stmtMeaning codeOverride (.For cond post body) = fun state =>
      (exprMeaning codeOverride cond state.mkOk).bind fun output =>
        if output.2 = ⟨0⟩ then .ok (output.1.overwrite? state)
        else
          (stmtMeaning codeOverride (.Block body) output.1).bind
            (afterMeaning codeOverride cond post body state) := by
  funext state
  apply Settles.meaning_eq
  have guard := (growing_expr codeOverride cond).settles_meaning state.mkOk
  have iteration (output : State × Literal) :
      Settles
        (fun fuel (output : State × Literal) =>
          if output.2 = ⟨0⟩ then .ok (output.1.overwrite? state)
          else (runStmt codeOverride (.Block body) fuel output.1).bind
            (afterBody codeOverride cond post body fuel state))
        output
        (if output.2 = ⟨0⟩ then .ok (output.1.overwrite? state)
          else (stmtMeaning codeOverride (.Block body) output.1).bind
            (afterMeaning codeOverride cond post body state)) := by
    by_cases zero : output.2 = ⟨0⟩
    · use 0
      intro fuel _
      simp only [if_pos zero]
    · simp only [Settles, if_neg zero]
      exact ((growing_stmt codeOverride (.Block body)).settles_meaning output.1).seq
        (settles_after codeOverride cond post body state)
  have turns := settles_iff.mp (guard.seq iteration)
  rw [settles_iff, ← Filter.map_add_atTop_eq_nat 3, Filter.eventually_map]
  filter_upwards [turns] with fuel means
  rw [runStmt_for]
  simp only [tick, loop_eq]
  exact means

/-! ## Calls of user functions -/

/-- Where no contract runs there are no user functions. -/
theorem callMeaning_of_absent (f : YulFunctionName) {input : State × List Literal}
    (absent : input.1.runningCode = none) :
    callMeaning codeOverride f input =
      .error (.MissingContract s!"{input.1.executionEnv.codeOwner}") := by
  rw [callMeaning, meaning_congr (Growing.tick (Growing.const _)) fun fuel =>
    runCall_of_absent codeOverride f fuel input absent, (Growing.const _).meaning_tick,
    meaning_const]

/-- The running contract may lack the function. -/
theorem callMeaning_of_undefined {f : YulFunctionName} {code : YulContract}
    {input : State × List Literal} (running : input.1.runningCode = some code)
    (undefined : (codeOverride.getD code).functions.lookup f = none) :
    callMeaning codeOverride f input = .error (.MissingContractFunction f) := by
  rw [callMeaning, meaning_congr (Growing.tick (Growing.const _)) fun fuel =>
    runCall_of_undefined codeOverride fuel input running undefined,
    (Growing.const _).meaning_tick, meaning_const]

/-- A call means the body, in variables of its own. -/
theorem callMeaning_of_running {f : YulFunctionName} {definition : FunctionDefinition}
    {code : YulContract} {input : State × List Literal}
    (running : input.1.runningCode = some code)
    (found : (codeOverride.getD code).functions.lookup f = some definition) :
    callMeaning codeOverride f input =
      (stmtMeaning codeOverride (.Block definition.body) (enterCall definition input)).map
        (leaveCall definition input) := by
  have body := growing_stmt codeOverride (.Block definition.body)
  have framed : Growing .OutOfFuel (framed (enterCall definition) (leaveCall definition)
      (runStmt codeOverride (.Block definition.body))) := body.framed
  rw [callMeaning, meaning_congr framed.tick fun fuel =>
    runCall_of_running codeOverride fuel input running found, framed.meaning_tick,
    body.meaning_framed]

/-! ## Operations and contracts -/

/-- A contract that is called runs its dispatcher in variables of its own. -/
theorem dispatcherMeaning_eq :
    dispatcherMeaning codeOverride = fun state =>
      (stmtMeaning codeOverride (.Block [state.executionEnv.code.dispatcher])
        (state.initcall [] []).mkOk).map (leaveCall (.Def [] [] []) (state, [])) := by
  funext state
  apply Settles.meaning_eq
  have body :
      Settles
        (framed (fun state : State => (state.initcall [] []).mkOk)
          (fun state => leaveCall (.Def [] [] []) (state, []))
          (runStmt codeOverride (.Block [state.executionEnv.code.dispatcher])))
        state
        ((stmtMeaning codeOverride (.Block [state.executionEnv.code.dispatcher])
          (state.initcall [] []).mkOk).map (leaveCall (.Def [] [] []) (state, []))) :=
    ((growing_stmt codeOverride _).settles_meaning _).framed
  rw [runDispatcher_eq]
  apply Settles.tick
  exact body

/-- With enough fuel a request is answered by what the callee means. -/
theorem eventually_answer (request : Request) :
    ∀ᶠ fuel in atTop,
      request.answer (callDispatcher fuel) = request.answer dispatcherMeaning := by
  cases request with
  | done outcome => exact .of_forall fun _ => rfl
  | run codeOverride start return' =>
      have callee : ∀ᶠ fuel in atTop, callDispatcher fuel codeOverride start =
          dispatcherMeaning codeOverride start :=
        settles_iff.mp ((growing_dispatcher codeOverride).settles_meaning start)
      filter_upwards [callee] with fuel means
      simp only [Request.answer, contractCall]
      rw [means]

/-- An operation means its outcome, or the answer of the contract that it asks for. -/
theorem primMeaning_eq (prim : PrimOp) :
    primMeaning prim = fun input =>
      (request input.1 prim input.2).answer dispatcherMeaning := by
  funext input
  apply Settles.meaning_eq
  rw [runPrim_eq]
  apply Settles.tick
  rw [settles_iff]
  filter_upwards [eventually_answer (request input.1 prim input.2)] with fuel answered
  rw [primCallWith_eq_answer, answered]

end YulGasRules.Yul
