import YulGasRules.Fuel.Approximation
import YulGasRules.Yul.Computation

/-!
# More fuel changes nothing but exhaustion

An evaluation that does not run out of fuel has the same outcome with any larger
amount.  The proof is by strong induction on the fuel: what grows at all smaller
amounts grows at the present one.  For the straight-line part of the language the
rules of the combinators do the work.  A `switch` needs care, since it runs all its
cases and keeps their outcomes, exhaustion among them, until it selects one.
-/

namespace YulGasRules.Yul

open Fuel

/-! ## Calls of other contracts -/

section ContractCalls

variable {callee callee' : Option YulContract → State → Outcome (List Literal)}

/-- A call of a contract asks the callee, and does nothing else with the fuel. -/
theorem contractCall_approximates
    (approximates : ∀ codeOverride state,
      Approximates .OutOfFuel (callee codeOverride state) (callee' codeOverride state))
    (codeOverride : Option YulContract) (state : State)
    (return' : State → Outcome (List Literal)) :
    Approximates .OutOfFuel (contractCall callee codeOverride state return')
      (contractCall callee' codeOverride state return') := by
  simp only [contractCall]
  rcases approximates codeOverride state with up | same
  · rw [up]
    exact .gives_up _
  · rw [same]
    exact .refl _

/-- Whether and how an operation calls does not depend on the callee. -/
theorem primCallWith_approximates [FFI]
    (approximates : ∀ codeOverride state,
      Approximates .OutOfFuel (callee codeOverride state) (callee' codeOverride state))
    (state : State) (prim : PrimOp) (args : List Literal) :
    Approximates .OutOfFuel (primCallWith callee state prim args)
      (primCallWith callee' state prim args) := by
  have called := contractCall_approximates approximates
  simp only [primCallWith]
  split
  · exact .refl _
  · split
    · simp only [callOp]
      repeat' (first | split | dsimp only)
      all_goals first | exact .refl _ | exact called _ _ _
    · simp only [staticcallOp]
      repeat' (first | split | dsimp only)
      all_goals first | exact .refl _ | exact called _ _ _
    · simp only [callcodeOp]
      repeat' (first | split | dsimp only)
      all_goals first | exact .refl _ | exact called _ _ _
    · simp only [delegatecallOp]
      repeat' (first | split | dsimp only)
      all_goals first | exact .refl _ | exact called _ _ _
    · exact .refl _

end ContractCalls

/-! ## The cases of a `switch` -/

/-- The outcome of the selected case, or the default outcome. -/
def selectCase (cond : Literal) (default' : Except Exception State)
    (outcomes : List (Literal × Except Exception State)) : Except Exception State :=
  outcomes.foldr (fun outcome rest => if outcome.1 = cond then outcome.2 else rest) default'

/-- The outcomes of the cases of a `switch` with less and with more fuel. -/
def CasesApproximate
    (less more : Except Exception (List (Literal × Except Exception State))) : Prop :=
  less = .error .OutOfFuel ∨ ∃ outcomes outcomes',
    less = .ok outcomes ∧ more = .ok outcomes' ∧
      List.Forall₂ (fun outcome outcome' => outcome.1 = outcome'.1 ∧
        Approximates .OutOfFuel outcome.2 outcome'.2) outcomes outcomes'

/-- The selection of a case does not depend on fuel. -/
theorem selectCase_approximates (cond : Literal) {default' : Except Exception State}
    {outcomes outcomes' : List (Literal × Except Exception State)}
    (each : List.Forall₂ (fun outcome outcome' => outcome.1 = outcome'.1 ∧
      Approximates .OutOfFuel outcome.2 outcome'.2) outcomes outcomes') :
    Approximates .OutOfFuel (selectCase cond default' outcomes)
      (selectCase cond default' outcomes') := by
  induction each with
  | nil => exact .refl _
  | cons head _ ih =>
      simp only [selectCase, List.foldr_cons, head.1]
      split
      · exact head.2
      · exact ih

variable [FFI] (codeOverride : Option YulContract)

/-! ## The remaining equations of the interpreter -/

/-- A contract that is called, as a computation. -/
abbrev runDispatcher : Comp Exception State (State × List Literal) :=
  fun fuel state => callDispatcher fuel codeOverride state

theorem runPrim_eq (prim : PrimOp) :
    runPrim prim = tick .OutOfFuel fun fuel input =>
      primCallWith (callDispatcher fuel) input.1 prim input.2 := by
  funext fuel input
  cases fuel <;> rfl

theorem runDispatcher_eq :
    runDispatcher codeOverride = tick .OutOfFuel fun fuel state =>
      (runStmt codeOverride (.Block [state.executionEnv.code.dispatcher]) fuel
        (state.initcall [] []).mkOk).map (leaveCall (.Def [] [] []) (state, [])) := by
  funext fuel state
  cases fuel with
  | zero => rfl
  | succ fuel =>
      simp only [runDispatcher, callDispatcher, tick, runStmt, FunctionDefinition.body,
        FunctionDefinition.params]
      cases exec fuel (.Block [state.executionEnv.code.dispatcher]) codeOverride
        (state.initcall [] []).mkOk <;> rfl

theorem runStmt_for (cond : Expr) (post body : List Stmt) :
    runStmt codeOverride (.For cond post body) =
      tick .OutOfFuel fun fuel state => loop fuel cond post body codeOverride state := by
  funext fuel state
  cases fuel <;> rfl

theorem execSwitchCases_cons (fuel : Nat) (state : State) (val : Literal)
    (stmts : List Stmt) (branches : List (Literal × List Stmt)) :
    execSwitchCases (fuel + 1) codeOverride state ((val, stmts) :: branches) =
      (execSwitchCases fuel codeOverride state branches).map
        fun outcomes => (val, exec fuel (.Block stmts) codeOverride state) :: outcomes := by
  simp only [execSwitchCases]
  rcases exec fuel (.Block stmts) codeOverride state with exception | after
  · cases exception <;> cases execSwitchCases fuel codeOverride state branches <;> rfl
  · cases execSwitchCases fuel codeOverride state branches <;> rfl

/-- The source runs the branches and the default first, and selects then. -/
theorem exec_switch (fuel : Nat) (state : State) (cond : Expr)
    (branches : List (Literal × List Stmt)) (default' : List Stmt) :
    exec (fuel + 1) (.Switch cond branches default') codeOverride state =
      (eval fuel cond codeOverride state).bind fun output =>
        (execSwitchCases fuel codeOverride output.1 branches).bind fun outcomes =>
          (exec fuel (.Block default') codeOverride output.1).bind fun after =>
            selectCase output.2 (.ok after) outcomes := by
  simp only [exec]
  rcases eval fuel cond codeOverride state with exception | output
  · rfl
  · simp only [Except.bind]
    rcases execSwitchCases fuel codeOverride output.1 branches with exception | outcomes
    · rfl
    · simp only
      rcases exec fuel (.Block default') codeOverride output.1 with exception | after <;> rfl

/-- What a loop does once its body has ended normally: the post block, then the loop
again. -/
def nextIteration (cond : Expr) (post body : List Stmt) (fuel : Nat) (before revived : State) :
    Except Exception State :=
  (exec fuel (.Block post) codeOverride revived).bind fun next =>
    (exec fuel (.For cond post body) codeOverride (next.overwrite? before)).map
      fun last => last.overwrite? before

/-- What a loop does after its body: a `break` or a `leave` ends it. -/
def afterBody (cond : Expr) (post body : List Stmt) (fuel : Nat) (before after : State) :
    Except Exception State :=
  match after with
  | .OutOfFuel => .ok (after.overwrite? before)
  | .Checkpoint (.Break _ _) => .ok (after.reviveJump.overwrite? before)
  | .Checkpoint (.Leave _ _) => .ok (after.overwrite? before)
  | _ => nextIteration codeOverride cond post body fuel before after.reviveJump

theorem nextIteration_eq (cond : Expr) (post body : List Stmt) (fuel : Nat)
    (before revived : State) :
    nextIteration codeOverride cond post body fuel before revived =
      match exec fuel (.Block post) codeOverride revived with
      | .error e => .error e
      | .ok next =>
          match exec fuel (.For cond post body) codeOverride (next.overwrite? before) with
          | .error e => .error e
          | .ok last => .ok (last.overwrite? before) := by
  simp only [nextIteration]
  rcases exec fuel (.Block post) codeOverride revived with exception | next
  · rfl
  · simp only [Except.bind]
    rcases exec fuel (.For cond post body) codeOverride (next.overwrite? before) with
      exception | last <;> rfl

/-- Two units of fuel are spent before the condition is evaluated. -/
theorem loop_eq (fuel : Nat) (state : State) (cond : Expr) (post body : List Stmt) :
    loop (fuel + 2) cond post body codeOverride state =
      (eval fuel cond codeOverride state.mkOk).bind fun output =>
        if output.2 = ⟨0⟩ then .ok (output.1.overwrite? state)
        else
          (exec fuel (.Block body) codeOverride output.1).bind
            (afterBody codeOverride cond post body fuel state) := by
  simp only [loop]
  rcases eval fuel cond codeOverride state.mkOk with exception | output
  · rfl
  · simp only [Except.bind]
    split
    · rfl
    · rcases exec fuel (.Block body) codeOverride output.1 with exception | after
      · rfl
      · cases after with
        | Ok shared store => exact (nextIteration_eq ..).symm
        | OutOfFuel => rfl
        | Checkpoint jump =>
            cases jump with
            | Continue shared store => exact (nextIteration_eq ..).symm
            | Break shared store => rfl
            | Leave shared store => rfl

/-! ## Growth -/

/-- Everything that the interpreter evaluates grows at an amount of fuel. -/
structure Grows (fuel : Nat) : Prop where
  args : ∀ codeOverride args, GrowsAt .OutOfFuel (runArgs codeOverride args) fuel
  expr : ∀ codeOverride expr, GrowsAt .OutOfFuel (runExpr codeOverride expr) fuel
  stmt : ∀ codeOverride stmt, GrowsAt .OutOfFuel (runStmt codeOverride stmt) fuel
  prim : ∀ prim, GrowsAt .OutOfFuel (runPrim prim) fuel
  call : ∀ codeOverride f, GrowsAt .OutOfFuel (runCall codeOverride f) fuel
  dispatcher : ∀ codeOverride, GrowsAt .OutOfFuel (runDispatcher codeOverride) fuel
  branches : ∀ codeOverride state branches,
    CasesApproximate (execSwitchCases fuel codeOverride state branches)
      (execSwitchCases (fuel + 1) codeOverride state branches)
  loop : ∀ codeOverride cond post body,
    GrowsAt .OutOfFuel
      (fun fuel state => loop fuel cond post body codeOverride state) fuel

namespace Grows

variable {fuel : Nat}

/-- Operands are arguments in reverse. -/
theorem operands (grows : Grows fuel) (args : List Expr) :
    GrowsAt .OutOfFuel (runOperands codeOverride args) fuel :=
  (grows.args codeOverride args.reverse).framed

section Below

variable (below : ∀ less, less < fuel → Grows less)

include below

theorem args_of_below (args : List Expr) :
    GrowsAt .OutOfFuel (runArgs codeOverride args) fuel := by
  cases args with
  | nil =>
      rw [runArgs_nil]
      exact GrowsAt.tick fun _ _ => GrowsAt.const _
  | cons arg args =>
      rw [runArgs_cons]
      refine GrowsAt.tick fun less lt => ((below less lt).expr codeOverride arg).seq ?_
      apply GrowsAt.tick
      intro last lt'
      exact ((below last (lt'.trans lt)).args codeOverride args).framed

/-- Operands, then something that grows with them: a call in any position. -/
theorem applied_of_below {α : Type} (args : List Expr)
    {comp : Comp Exception (State × List Literal) α}
    (grows : ∀ less, less < fuel → GrowsAt .OutOfFuel comp less) :
    GrowsAt .OutOfFuel (tick .OutOfFuel (seq (runOperands codeOverride args) comp)) fuel :=
  GrowsAt.tick fun less lt => ((below less lt).operands codeOverride args).seq (grows less lt)

theorem expr_of_below (expr : Expr) : GrowsAt .OutOfFuel (runExpr codeOverride expr) fuel := by
  cases expr with
  | Var id =>
      rw [runExpr_var]
      exact GrowsAt.tick fun _ _ => GrowsAt.const _
  | Lit val =>
      rw [runExpr_lit]
      exact GrowsAt.tick fun _ _ => GrowsAt.const _
  | Call f args =>
      cases f with
      | inl prim =>
          rw [runExpr_prim]
          exact applied_of_below codeOverride below args fun less lt =>
            ((below less lt).prim prim).framed
      | inr f =>
          rw [runExpr_call]
          apply applied_of_below codeOverride below args
          intro less lt
          apply GrowsAt.tick
          intro last lt'
          exact ((below last (lt'.trans lt)).call codeOverride f).framed

theorem let_of_below (vars : List Identifier) (expr : Expr) :
    GrowsAt .OutOfFuel (runStmt codeOverride (.Let vars (some expr))) fuel := by
  cases expr with
  | Var id =>
      rw [runStmt_let_var]
      exact GrowsAt.tick fun _ _ => GrowsAt.const _
  | Lit val =>
      rw [runStmt_let_lit]
      exact GrowsAt.tick fun _ _ => GrowsAt.const _
  | Call f args =>
      cases f with
      | inl prim =>
          rw [runStmt_let_prim]
          exact applied_of_below codeOverride below args fun less lt =>
            ((below less lt).prim prim).framed
      | inr f =>
          rw [runStmt_let_call]
          apply applied_of_below codeOverride below args
          intro less lt
          apply GrowsAt.tick
          intro last lt'
          exact ((below last (lt'.trans lt)).call codeOverride f).framed

/-- A switch runs its branches with the fuel that is left. -/
theorem switch_of_below (cond : Expr) (branches : List (Literal × List Stmt))
    (default' : List Stmt) :
    GrowsAt .OutOfFuel (runStmt codeOverride (.Switch cond branches default')) fuel := by
  intro state
  cases fuel with
  | zero => exact .gives_up _
  | succ fuel =>
      have grows := below fuel (Nat.lt_succ_self fuel)
      simp only [runStmt, exec_switch]
      apply (grows.expr codeOverride cond state).bind
      intro output
      rcases grows.branches codeOverride output.1 branches with up | ⟨_, _, same, same', each⟩
      · rw [up]
        exact .gives_up _
      · rw [same, same']
        apply (grows.stmt codeOverride (.Block default') output.1).bind
        intro after
        exact selectCase_approximates output.2 each

/-- A statement grows if its parts do with less fuel. -/
theorem stmt_of_below (stmt : Stmt) : GrowsAt .OutOfFuel (runStmt codeOverride stmt) fuel := by
  cases stmt with
  | Block stmts =>
      cases stmts with
      | nil =>
          rw [runStmt_block_nil]
          exact GrowsAt.tick fun _ _ => GrowsAt.const _
      | cons stmt stmts =>
          rw [runStmt_block_cons]
          exact GrowsAt.tick fun less lt =>
            ((below less lt).stmt codeOverride stmt).seq
              ((below less lt).stmt codeOverride (.Block stmts))
  | Let vars value =>
      cases value with
      | none =>
          rw [runStmt_declare]
          exact GrowsAt.tick fun _ _ => GrowsAt.const _
      | some expr => exact let_of_below codeOverride below vars expr
  | ExprStmtCall expr =>
      cases expr with
      | Call f args =>
          rw [runStmt_exprStmt]
          exact let_of_below codeOverride below [] (.Call f args)
      | Var id => exact GrowsAt.steady (fun _ => rfl) (fun _ _ => rfl)
      | Lit val => exact GrowsAt.steady (fun _ => rfl) (fun _ _ => rfl)
  | Switch cond branches default' =>
      exact switch_of_below codeOverride below cond branches default'
  | For cond post body =>
      rw [runStmt_for]
      exact GrowsAt.tick fun less lt => (below less lt).loop codeOverride cond post body
  | If cond body =>
      rw [runStmt_if]
      refine GrowsAt.tick fun less lt => ((below less lt).expr codeOverride cond).seq ?_
      refine GrowsAt.branch _ ?_ (GrowsAt.const _)
      exact ((below less lt).stmt codeOverride (.Block body)).framed
  | Continue => exact GrowsAt.steady (fun _ => rfl) (fun _ _ => rfl)
  | Break => exact GrowsAt.steady (fun _ => rfl) (fun _ _ => rfl)
  | Leave => exact GrowsAt.steady (fun _ => rfl) (fun _ _ => rfl)

theorem prim_of_below (prim : PrimOp) : GrowsAt .OutOfFuel (runPrim prim) fuel := by
  rw [runPrim_eq]
  apply GrowsAt.tick
  intro less lt input
  exact primCallWith_approximates (below less lt).dispatcher input.1 prim input.2

theorem call_of_below (f : YulFunctionName) :
    GrowsAt .OutOfFuel (runCall codeOverride f) fuel := by
  intro input
  cases running : input.1.runningCode with
  | none =>
      simp only [runCall_of_absent codeOverride f _ input running]
      exact GrowsAt.tick (fun _ _ => GrowsAt.const _) input
  | some code =>
      cases found : (codeOverride.getD code).functions.lookup f with
      | none =>
          simp only [runCall_of_undefined codeOverride _ input running found]
          exact GrowsAt.tick (fun _ _ => GrowsAt.const _) input
      | some definition =>
          simp only [runCall_of_running codeOverride _ input running found]
          exact GrowsAt.tick (fun less lt =>
            ((below less lt).stmt codeOverride (.Block definition.body)).framed) input

theorem dispatcher_of_below : GrowsAt .OutOfFuel (runDispatcher codeOverride) fuel := by
  rw [runDispatcher_eq]
  exact GrowsAt.tick fun less lt state => ((below less lt).stmt codeOverride _ _).map

/-- Each branch of a switch grows by itself. -/
theorem branches_of_below (state : State) (branches : List (Literal × List Stmt)) :
    CasesApproximate (execSwitchCases fuel codeOverride state branches)
      (execSwitchCases (fuel + 1) codeOverride state branches) := by
  cases branches with
  | nil => exact .inr ⟨[], [], by cases fuel <;> rfl, rfl, .nil⟩
  | cons branch branches =>
      cases fuel with
      | zero => exact .inl rfl
      | succ fuel =>
          have grows := below fuel (Nat.lt_succ_self fuel)
          obtain ⟨val, stmts⟩ := branch
          rw [execSwitchCases_cons, execSwitchCases_cons]
          rcases grows.branches codeOverride state branches with
            up | ⟨outcomes, outcomes', same, same', each⟩
          · rw [up]
            exact .inl rfl
          · rw [same, same']
            have head := grows.stmt codeOverride (.Block stmts) state
            exact .inr ⟨_, _, rfl, rfl, .cons ⟨rfl, head⟩ each⟩

theorem afterBody_of_below {less : Nat} (lt : less < fuel) (cond : Expr)
    (post body : List Stmt) (before after : State) :
    Approximates .OutOfFuel (afterBody codeOverride cond post body less before after)
      (afterBody codeOverride cond post body (less + 1) before after) := by
  have grows := below less lt
  have proceed (revived : State) :
      Approximates .OutOfFuel
        (nextIteration codeOverride cond post body less before revived)
        (nextIteration codeOverride cond post body (less + 1) before revived) :=
    (grows.stmt codeOverride (.Block post) revived).bind fun next =>
      (grows.stmt codeOverride (.For cond post body) (next.overwrite? before)).map
  cases after with
  | Ok shared store => exact proceed _
  | OutOfFuel => exact .refl _
  | Checkpoint jump =>
      cases jump with
      | Continue shared store => exact proceed _
      | Break shared store => exact .refl _
      | Leave shared store => exact .refl _

theorem loop_of_below (cond : Expr) (post body : List Stmt) :
    GrowsAt .OutOfFuel
      (fun fuel state => Yul.loop fuel cond post body codeOverride state) fuel := by
  intro state
  match fuel, below with
  | 0, _ => exact .gives_up _
  | 1, _ => exact .gives_up _
  | fuel + 2, below =>
      have lt : fuel < fuel + 2 := Nat.lt_add_of_pos_right (Nat.succ_pos 1)
      have grows := below fuel lt
      simp only [loop_eq]
      apply (grows.expr codeOverride cond state.mkOk).bind
      intro output
      split
      · exact .refl _
      · apply (grows.stmt codeOverride (.Block body) output.1).bind
        intro after
        exact afterBody_of_below codeOverride below lt cond post body state after

end Below

end Grows

/-- The interpreter grows at every amount of fuel. -/
theorem grows (fuel : Nat) : Grows fuel := by
  induction fuel using Nat.strong_induction_on with
  | _ fuel below =>
      exact
        { args := fun codeOverride => Grows.args_of_below codeOverride below
          expr := fun codeOverride => Grows.expr_of_below codeOverride below
          stmt := fun codeOverride => Grows.stmt_of_below codeOverride below
          prim := Grows.prim_of_below below
          call := fun codeOverride => Grows.call_of_below codeOverride below
          dispatcher := fun codeOverride => Grows.dispatcher_of_below codeOverride below
          branches := fun codeOverride => Grows.branches_of_below codeOverride below
          loop := fun codeOverride => Grows.loop_of_below codeOverride below }

/-! ## Consequences -/

/-- So it is with expressions. -/
theorem growing_expr (expr : Expr) : Growing .OutOfFuel (runExpr codeOverride expr) :=
  fun fuel => (grows fuel).expr codeOverride expr

/-- And with statements. -/
theorem growing_stmt (stmt : Stmt) : Growing .OutOfFuel (runStmt codeOverride stmt) :=
  fun fuel => (grows fuel).stmt codeOverride stmt

/-- An outcome other than exhaustion is the outcome for every larger amount of fuel. -/
theorem exec_of_le {less more : Nat} (le : less ≤ more) (stmt : Stmt) (state : State)
    (final : exec less stmt codeOverride state ≠ .error .OutOfFuel) :
    exec more stmt codeOverride state = exec less stmt codeOverride state :=
  (((growing_stmt codeOverride stmt).approximates_of_le le state).eq_of_ne final).symm

/-- Two evaluations that do not run out of fuel have the same outcome. -/
theorem exec_deterministic {fuel fuel' : Nat} (stmt : Stmt) (state : State)
    (final : exec fuel stmt codeOverride state ≠ .error .OutOfFuel)
    (final' : exec fuel' stmt codeOverride state ≠ .error .OutOfFuel) :
    exec fuel stmt codeOverride state = exec fuel' stmt codeOverride state := by
  rcases Nat.le_total fuel fuel' with le | le
  · exact (exec_of_le codeOverride le stmt state final).symm
  · exact exec_of_le codeOverride le stmt state final'

end YulGasRules.Yul
