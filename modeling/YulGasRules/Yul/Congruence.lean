import YulGasRules.Yul.Blindness
import YulGasRules.Yul.Denotation
import YulGasRules.Yul.Rewriting

/-!
# Rewritten programs mean the same

If the statements of its sites can be put in each other's place, then a rewriting may
take place anywhere: in the program, and in every contract that the program may come to
run.  From states that differ in rewritten codes alone, the program and its rewriting lead
to such states again, with the same results.

A site may take more fuel or less after it is replaced, so the two programs do not run
side by side.  At every amount of fuel, the one is held against the meaning of the other.
-/

namespace YulGasRules.Yul

open Collections Fuel

variable [FFI] {site : Stmt → Stmt → Prop} {R : YulContract → YulContract → Prop}

/-- From recodings of a state, in related codes, the statements lead to related outcomes. -/
def RelatedMeanings (R : YulContract → YulContract → Prop) (stmt stmt' : Stmt) : Prop :=
  ∀ {codeOverride codeOverride'}, Option.Rel R codeOverride codeOverride' →
    ∀ {state state'}, StateRecoded R state state' →
      Related (StateRecoded R) (ExceptionRecoded R) (stmtMeaning codeOverride stmt state)
        (stmtMeaning codeOverride' stmt' state')

/-- One statement can be put in the place of the other: it means the same whatever code it
is run in, or leads to the same in all codes that are related. -/
def Interchangeable (R : YulContract → YulContract → Prop) (stmt stmt' : Stmt) : Prop :=
  (∀ codeOverride, stmtMeaning codeOverride stmt = stmtMeaning codeOverride stmt') ∨
    RelatedMeanings R stmt stmt'

/-- Related codes are rewritings of each other, at sites that are interchangeable. -/
structure Replaces (site : Stmt → Stmt → Prop) (R : YulContract → YulContract → Prop) :
    Prop where
  sites : ∀ {stmt stmt'}, site stmt stmt' → Interchangeable R stmt stmt'
  rewrites : ∀ {code code'}, R code code' → ContractRewrites site code code'
  /-- Accounts that come to be hold the default code. -/
  unset : R default default

omit [FFI] in
theorem overrides_symm {codeOverride codeOverride' : Option YulContract}
    (overrides : Option.Rel (flip R) codeOverride' codeOverride) :
    Option.Rel R codeOverride codeOverride' := by
  cases overrides with
  | none => exact .none
  | some related => exact .some related

omit [FFI] in
/-- What runs is the override or else the running code, on both sides. -/
theorem overrides_getD {codeOverride codeOverride' : Option YulContract}
    (overrides : Option.Rel R codeOverride codeOverride') {code code' : YulContract}
    (codes : R code code') : R (codeOverride.getD code) (codeOverride'.getD code') := by
  cases overrides with
  | none => exact codes
  | some related => exact related

/-- Related meanings may be read the other way around. -/
theorem RelatedMeanings.symm {stmt stmt' : Stmt} (related : RelatedMeanings R stmt stmt') :
    RelatedMeanings (flip R) stmt' stmt := by
  intro codeOverride codeOverride' overrides state state' states
  have outcomes := related (overrides_symm overrides) states.symm
  generalize stmtMeaning codeOverride' stmt state' = outcome,
    stmtMeaning codeOverride stmt' state = outcome' at outcomes
  cases outcomes with
  | ok finals => exact .ok finals.symm
  | error exceptions => exact .error exceptions.symm

theorem Replaces.symm (replaces : Replaces site R) : Replaces (flip site) (flip R) where
  sites replaced :=
    (replaces.sites replaced).imp (fun same codeOverride => (same codeOverride).symm)
      RelatedMeanings.symm
  rewrites related := (replaces.rewrites related).symm
  unset := replaces.unset

/-! ## Simulation -/

/-- An outcome that is not exhausted is matched, up to codes. -/
abbrev StateSimulated (R : YulContract → YulContract → Prop) :
    Except Exception State → Except Exception State → Prop :=
  Simulated .OutOfFuel (StateRecoded R) (ExceptionRecoded R)

/-- With this fuel, the statement comes to nothing that is not meant. -/
abbrev StateSimulates {σ : Type} (R : YulContract → YulContract → Prop) (related : σ → σ → Prop)
    (comp : Comp Exception σ State) (meant : σ → Except Exception State) (fuel : Nat) : Prop :=
  SimulatesAt .OutOfFuel related (StateRecoded R) (ExceptionRecoded R) comp meant fuel

/-- So it is with values. -/
abbrev OutputSimulates {σ α : Type} (R : YulContract → YulContract → Prop)
    (related : σ → σ → Prop) (comp : Comp Exception σ (State × α)) (meant : σ → Outcome α)
    (fuel : Nat) : Prop :=
  SimulatesAt .OutOfFuel related (OutputsRecoded R) (ExceptionRecoded R) comp meant fuel

/-- The outcomes of the cases of a `switch` against what they mean. -/
abbrev CasesSimulated (R : YulContract → YulContract → Prop)
    (outcomes : Except Exception (List (Literal × Except Exception State)))
    (meant : List (Literal × Except Exception State)) : Prop :=
  Simulated .OutOfFuel
    (List.Forall₂ fun outcome outcome' =>
      outcome.1 = outcome'.1 ∧ StateSimulated R outcome.2 outcome'.2)
    (ExceptionRecoded R) outcomes (.ok meant : Except Exception _)

omit [FFI] in
/-- The selection of a case depends on labels and outcomes alone. -/
theorem selectCase_simulated (cond : Literal) {default' meant' : Except Exception State}
    {outcomes meant : List (Literal × Except Exception State)}
    (otherwise : StateSimulated R default' meant')
    (each : List.Forall₂ (fun outcome outcome' =>
      outcome.1 = outcome'.1 ∧ StateSimulated R outcome.2 outcome'.2) outcomes meant) :
    StateSimulated R (selectCase cond default' outcomes) (selectCase cond meant' meant) := by
  induction each with
  | nil => exact otherwise
  | cons head _ ih => exact Simulated.ite (iff_of_eq (congrArg (· = cond) head.1)) head.2 ih

omit [FFI] in
theorem outputSimulates_asValue {comp : Comp Exception (State × List Literal) _}
    {meant : State × List Literal → Outcome (List Literal)} {fuel : Nat}
    (simulates : OutputSimulates R (OutputsRecoded R) comp meant fuel) :
    OutputSimulates R (OutputsRecoded R) (asValue comp)
      (fun input => (meant input).map fun output => (output.1, output.2.head!)) fuel :=
  simulates.framed (fun _ _ => id) fun _ _ _ _ _ outputs =>
    ⟨outputs.1, congrArg List.head! outputs.2⟩

omit [FFI] in
theorem stateSimulates_asBinding (vars : List Identifier)
    {comp : Comp Exception (State × List Literal) _}
    {meant : State × List Literal → Outcome (List Literal)} {fuel : Nat}
    (simulates : OutputSimulates R (OutputsRecoded R) comp meant fuel) :
    StateSimulates R (OutputsRecoded R) (asBinding vars comp)
      (fun input => (meant input).map fun output => output.1.multifill vars output.2) fuel :=
  simulates.framed (fun _ _ => id) fun _ _ output output' _ outputs => by
    rw [outputs.2]
    exact outputs.1.multifill vars output'.2

/-- What answers a request is simulated if the callee is. -/
theorem RequestRecoded.answer {request request' : Request} {fuel : Nat}
    (requests : RequestRecoded R request request')
    (callee : ∀ codeOverride codeOverride', Option.Rel R codeOverride codeOverride' →
      OutputSimulates R (StateRecoded R) (runDispatcher codeOverride)
        (dispatcherMeaning codeOverride') fuel) :
    Simulated .OutOfFuel (OutputsRecoded R) (ExceptionRecoded R)
      (request.answer (callDispatcher fuel)) (request'.answer dispatcherMeaning) := by
  cases requests with
  | done outcomes => exact .inr outcomes
  | @run codeOverride codeOverride' start start' _ _ overrides starts returns =>
      have ends := callee codeOverride codeOverride' overrides start start' starts
      simp only [Request.answer, contractCall]
      simp only [runDispatcher] at ends
      generalize callDispatcher fuel codeOverride start = outcome,
        dispatcherMeaning codeOverride' start' = meant at ends
      rcases ends with up | related
      · rw [up]
        exact .gives_up _
      · cases related with
        | ok outputs => exact .inr (returns outputs.1)
        | @error exception _ exceptions =>
            cases exceptions with
            | same silent =>
                cases exception with
                | YulHalt state value => exact (silent state.world rfl).elim
                | _ => exact .error (.same silent)
            | missing name name' => exact .error (.missing name name')
            | undefined name name' => exact .error (.undefined name name')
            | halt states value => exact .inr (returns states)

/-- Everything that the interpreter evaluates simulates the meaning of its rewriting at an
amount of fuel. -/
structure Simulates (site : Stmt → Stmt → Prop) (R : YulContract → YulContract → Prop)
    (fuel : Nat) : Prop where
  args : ∀ codeOverride codeOverride', Option.Rel R codeOverride codeOverride' → ∀ args,
    OutputSimulates R (StateRecoded R) (runArgs codeOverride args)
      (argsMeaning codeOverride' args) fuel
  expr : ∀ codeOverride codeOverride', Option.Rel R codeOverride codeOverride' → ∀ expr,
    OutputSimulates R (StateRecoded R) (runExpr codeOverride expr)
      (exprMeaning codeOverride' expr) fuel
  stmt : ∀ codeOverride codeOverride', Option.Rel R codeOverride codeOverride' →
    ∀ stmt stmt', Rewrites site stmt stmt' →
      StateSimulates R (StateRecoded R) (runStmt codeOverride stmt)
        (stmtMeaning codeOverride' stmt') fuel
  prim : ∀ prim, OutputSimulates R (OutputsRecoded R) (runPrim prim) (primMeaning prim) fuel
  call : ∀ codeOverride codeOverride', Option.Rel R codeOverride codeOverride' → ∀ f,
    OutputSimulates R (OutputsRecoded R) (runCall codeOverride f)
      (callMeaning codeOverride' f) fuel
  dispatcher : ∀ codeOverride codeOverride', Option.Rel R codeOverride codeOverride' →
    OutputSimulates R (StateRecoded R) (runDispatcher codeOverride)
      (dispatcherMeaning codeOverride') fuel
  branches : ∀ codeOverride codeOverride', Option.Rel R codeOverride codeOverride' →
    ∀ branches branches' : List (Literal × List Stmt),
      branches.map Prod.fst = branches'.map Prod.fst →
      (∀ pair ∈ branches.zip branches', Rewrites site (.Block pair.1.2) (.Block pair.2.2)) →
      ∀ state state', StateRecoded R state state' →
        CasesSimulated R (execSwitchCases fuel codeOverride state branches)
          (casesMeaning codeOverride' branches' state')
  loop : ∀ codeOverride codeOverride', Option.Rel R codeOverride codeOverride' →
    ∀ cond post post' body body', Rewrites site (.Block post) (.Block post') →
      Rewrites site (.Block body) (.Block body') →
      StateSimulates R (StateRecoded R)
        (fun fuel state => loop fuel cond post body codeOverride state)
        (stmtMeaning codeOverride' (.For cond post' body')) fuel

namespace Simulates

variable {fuel : Nat} {codeOverride codeOverride' : Option YulContract}

/-- Operands are arguments in reverse. -/
theorem operands (simulates : Simulates site R fuel)
    (overrides : Option.Rel R codeOverride codeOverride') (args : List Expr) :
    OutputSimulates R (StateRecoded R) (runOperands codeOverride args)
      (operandsMeaning codeOverride' args) fuel := by
  rw [operandsMeaning_eq]
  apply (simulates.args codeOverride codeOverride' overrides args.reverse).framed
  · exact fun _ _ => id
  · exact fun _ _ _ _ _ outputs => ⟨outputs.1, congrArg List.reverse outputs.2⟩

section Below

variable (replaces : Replaces site R) (below : ∀ less, less < fuel → Simulates site R less)
variable (overrides : Option.Rel R codeOverride codeOverride')

include below overrides

theorem args_of_below (args : List Expr) :
    OutputSimulates R (StateRecoded R) (runArgs codeOverride args)
      (argsMeaning codeOverride' args) fuel := by
  cases args with
  | nil =>
      rw [runArgs_nil, argsMeaning_nil]
      exact SimulatesAt.tick fun _ _ => .const fun _ _ states => .ok ⟨states, rfl⟩
  | cons arg args =>
      rw [runArgs_cons, argsMeaning_cons]
      apply SimulatesAt.tick
      intro less lt
      apply ((below less lt).expr codeOverride codeOverride' overrides arg).seq
      apply SimulatesAt.tick
      intro last lt'
      apply ((below last (lt'.trans lt)).args codeOverride codeOverride' overrides args).framed
      · exact fun _ _ outputs => outputs.1
      · intro input input' output output' inputs outputs
        exact ⟨outputs.1, by rw [inputs.2, outputs.2]⟩

/-- Operands, then something that is simulated from there: a call in any position. -/
theorem applied_of_below {α : Type} {T : α → α → Prop} (args : List Expr)
    {comp : Comp Exception (State × List Literal) α}
    {meant : State × List Literal → Except Exception α}
    (simulates : ∀ less, less < fuel →
      SimulatesAt .OutOfFuel (OutputsRecoded R) T (ExceptionRecoded R) comp meant less) :
    SimulatesAt .OutOfFuel (StateRecoded R) T (ExceptionRecoded R)
      (tick .OutOfFuel (seq (runOperands codeOverride args) comp))
      (fun state => (operandsMeaning codeOverride' args state).bind meant) fuel :=
  SimulatesAt.tick fun less lt =>
    ((below less lt).operands overrides args).seq (simulates less lt)

theorem expr_of_below (expr : Expr) :
    OutputSimulates R (StateRecoded R) (runExpr codeOverride expr)
      (exprMeaning codeOverride' expr) fuel := by
  cases expr with
  | Var id =>
      rw [runExpr_var, exprMeaning_var]
      exact SimulatesAt.tick fun _ _ => .const fun _ _ states => .ok ⟨states, states.read id⟩
  | Lit val =>
      rw [runExpr_lit, exprMeaning_lit]
      exact SimulatesAt.tick fun _ _ => .const fun _ _ states => .ok ⟨states, rfl⟩
  | Call f args =>
      cases f with
      | inl prim =>
          rw [runExpr_prim, exprMeaning_prim]
          apply applied_of_below below overrides args
          exact fun less lt => outputSimulates_asValue ((below less lt).prim prim)
      | inr f =>
          rw [runExpr_call, exprMeaning_call]
          apply applied_of_below below overrides args
          intro less lt
          apply SimulatesAt.tick
          intro last lt'
          exact outputSimulates_asValue
            ((below last (lt'.trans lt)).call codeOverride codeOverride' overrides f)

theorem let_of_below (vars : List Identifier) (expr : Expr) :
    StateSimulates R (StateRecoded R) (runStmt codeOverride (.Let vars (some expr)))
      (stmtMeaning codeOverride' (.Let vars (some expr))) fuel := by
  cases expr with
  | Var id =>
      rw [runStmt_let_var, stmtMeaning_let_var]
      apply SimulatesAt.tick
      intro _ _
      apply SimulatesAt.const
      intro state state' states
      rw [states.read id]
      exact .ok (states.insert _ _)
  | Lit val =>
      rw [runStmt_let_lit, stmtMeaning_let_lit]
      exact SimulatesAt.tick fun _ _ => .const fun _ _ states => .ok (states.insert _ _)
  | Call f args =>
      cases f with
      | inl prim =>
          rw [runStmt_let_prim, stmtMeaning_let_prim]
          apply applied_of_below below overrides args
          exact fun less lt => stateSimulates_asBinding vars ((below less lt).prim prim)
      | inr f =>
          rw [runStmt_let_call, stmtMeaning_let_call]
          apply applied_of_below below overrides args
          intro less lt
          apply SimulatesAt.tick
          intro last lt'
          exact stateSimulates_asBinding vars
            ((below last (lt'.trans lt)).call codeOverride codeOverride' overrides f)

/-- The branches are rewritten, the labels are not. -/
theorem switch_of_below (cond : Expr) {branches branches' : List (Literal × List Stmt)}
    {otherwise otherwise' : List Stmt} (labels : branches.map Prod.fst = branches'.map Prod.fst)
    (each : ∀ pair ∈ branches.zip branches',
      Rewrites site (.Block pair.1.2) (.Block pair.2.2))
    (default' : Rewrites site (.Block otherwise) (.Block otherwise')) :
    StateSimulates R (StateRecoded R)
      (runStmt codeOverride (.Switch cond branches otherwise))
      (stmtMeaning codeOverride' (.Switch cond branches' otherwise')) fuel := by
  intro state state' states
  cases fuel with
  | zero => exact .gives_up _
  | succ fuel =>
      have simulates := below fuel (Nat.lt_succ_self fuel)
      rw [stmtMeaning_switch, runStmt, exec_switch]
      apply (simulates.expr codeOverride codeOverride' overrides cond state state' states).bind
      intro output output' outputs
      -- all cases have run before the one that counts is selected
      change StateSimulated R _
        ((Except.ok (casesMeaning codeOverride' branches' output'.1)).bind fun meant =>
          (stmtMeaning codeOverride' (.Block otherwise') output'.1).bind fun after =>
            selectCase output'.2 (.ok after) meant)
      apply (simulates.branches codeOverride codeOverride' overrides branches branches' labels
        each output.1 output'.1 outputs.1).bind
      intro outcomes meant selectable
      apply (simulates.stmt codeOverride codeOverride' overrides _ _ default' output.1
        output'.1 outputs.1).bind
      intro after after' afters
      rw [outputs.2]
      exact selectCase_simulated output'.2 (.ok afters) selectable

/-- Each branch is matched by itself. -/
theorem branches_of_below (branches branches' : List (Literal × List Stmt))
    (labels : branches.map Prod.fst = branches'.map Prod.fst)
    (each : ∀ pair ∈ branches.zip branches',
      Rewrites site (.Block pair.1.2) (.Block pair.2.2))
    (state state' : State) (states : StateRecoded R state state') :
    CasesSimulated R (execSwitchCases fuel codeOverride state branches)
      (casesMeaning codeOverride' branches' state') := by
  match branches, branches', labels, each with
  | [], [], _, _ =>
      have none : execSwitchCases fuel codeOverride state [] = .ok [] := by
        cases fuel <;> rfl
      rw [none]
      exact .ok .nil
  | branch :: branches, branch' :: branches', labels, each =>
      cases fuel with
      | zero => exact .gives_up _
      | succ fuel =>
          have simulates := below fuel (Nat.lt_succ_self fuel)
          rw [List.map_cons, List.map_cons, List.cons.injEq] at labels
          have rest := simulates.branches codeOverride codeOverride' overrides branches
            branches' labels.2 (fun pair member => each pair (List.mem_cons_of_mem _ member))
            state state' states
          have head := simulates.stmt codeOverride codeOverride' overrides _ _
            (each (branch, branch') List.mem_cons_self) state state' states
          rw [execSwitchCases_cons]
          exact rest.map fun _ _ selectable => .cons ⟨labels.1, head⟩ selectable

theorem afterBody_of_below (cond : Expr) {post post' body body' : List Stmt}
    (posts : Rewrites site (.Block post) (.Block post'))
    (bodies : Rewrites site (.Block body) (.Block body')) {less : Nat} (lt : less < fuel)
    {before before' after after' : State} (befores : StateRecoded R before before')
    (afters : StateRecoded R after after') :
    StateSimulated R (afterBody codeOverride cond post body less before after)
      (afterMeaning codeOverride' cond post' body' before' after') := by
  have simulates := below less lt
  have proceed : StateSimulated R
      (nextIteration codeOverride cond post body less before after.reviveJump)
      (nextMeaning codeOverride' cond post' body' before' after'.reviveJump) := by
    apply (simulates.stmt codeOverride codeOverride' overrides _ _ posts _ _
      afters.reviveJump).bind
    intro next next' nexts
    apply (simulates.stmt codeOverride codeOverride' overrides _ _ (.for cond posts bodies) _ _
      (nexts.overwrite befores)).map
    exact fun _ _ lasts => lasts.overwrite befores
  cases afters with
  | ok machine store worlds => exact proceed
  | outOfFuel => exact .ok (StateRecoded.outOfFuel.overwrite befores)
  | jump kind machine store worlds =>
      have pending := StateRecoded.jump kind machine store worlds
      cases kind with
      | Continue => exact proceed
      | Break => exact .ok (pending.reviveJump.overwrite befores)
      | Leave => exact .ok (pending.overwrite befores)

omit below overrides in
/-- A statement that is not a call fails on both sides. -/
theorem invalid_of_below {expr : Expr} (invalid : ∀ f args, expr ≠ .Call f args) :
    StateSimulates R (StateRecoded R) (runStmt codeOverride (.ExprStmtCall expr))
      (stmtMeaning codeOverride' (.ExprStmtCall expr)) fuel := by
  rw [runStmt_invalid codeOverride invalid, stmtMeaning_invalid codeOverride' invalid]
  exact SimulatesAt.tick fun _ _ => .const fun _ _ _ => .error (.same fun _ => id)

/-- A statement that is kept up to some of the sites simulates what these lead to. -/
theorem kept_of_below {kept : Stmt → Stmt → Prop}
    (included : ∀ stmt stmt', kept stmt stmt' → site stmt stmt')
    (atSites : ∀ stmt stmt', kept stmt stmt' →
      StateSimulates R (StateRecoded R) (runStmt codeOverride stmt)
        (stmtMeaning codeOverride' stmt') fuel)
    {stmt stmt' : Stmt} (rewrites : Rewrites kept stmt stmt') :
    StateSimulates R (StateRecoded R) (runStmt codeOverride stmt)
      (stmtMeaning codeOverride' stmt') fuel := by
  cases rewrites with
  | site replaced => exact atSites stmt stmt' replaced
  | nil =>
      rw [runStmt_block_nil, stmtMeaning_block_nil]
      exact SimulatesAt.tick fun _ _ => .const fun _ _ states => .ok states
  | cons head rest =>
      rw [runStmt_block_cons, stmtMeaning_block_cons]
      apply SimulatesAt.tick
      intro less lt
      have simulates := (below less lt).stmt codeOverride codeOverride' overrides
      exact (simulates _ _ (head.mono included)).seq (simulates _ _ (rest.mono included))
  | «let» vars value =>
      cases value with
      | none =>
          rw [runStmt_declare, stmtMeaning_declare]
          exact SimulatesAt.tick fun _ _ => .const fun _ _ states => .ok (states.declare vars)
      | some expr => exact let_of_below below overrides vars expr
  | exprStmtCall expr =>
      cases expr with
      | Call f args =>
          rw [runStmt_exprStmt, stmtMeaning_exprStmt]
          exact let_of_below below overrides [] (.Call f args)
      | Var id => exact invalid_of_below nofun
      | Lit val => exact invalid_of_below nofun
  | switch cond labels each default' =>
      exact switch_of_below below overrides cond labels
        (fun pair member => (each pair member).mono included) (default'.mono included)
  | «for» cond posts bodies =>
      rw [runStmt_for]
      apply SimulatesAt.tick
      exact fun less lt => (below less lt).loop codeOverride codeOverride' overrides cond
        _ _ _ _ (posts.mono included) (bodies.mono included)
  | «if» cond bodies =>
      rw [runStmt_if, stmtMeaning_if]
      apply SimulatesAt.tick
      intro less lt
      apply ((below less lt).expr codeOverride codeOverride' overrides cond).seq
      intro output output' outputs
      have taken := (below less lt).stmt codeOverride codeOverride' overrides _ _
        (bodies.mono included) output.1 output'.1 outputs.1
      refine Simulated.ite ?_ ?_ (.ok outputs.1)
      · simp only [outputs.2, decide_eq_true_iff]
      · change StateSimulated R (Except.map id _) _
        rw [Except.map_id]
        exact taken
  | «continue» =>
      rw [runStmt_continue, stmtMeaning_continue]
      exact SimulatesAt.tick fun _ _ => .const fun _ _ states => .ok
        (states.setJump .Continue (fun _ _ => rfl) rfl fun _ => rfl)
  | «break» =>
      rw [runStmt_break, stmtMeaning_break]
      exact SimulatesAt.tick fun _ _ => .const fun _ _ states => .ok
        (states.setJump .Break (fun _ _ => rfl) rfl fun _ => rfl)
  | leave =>
      rw [runStmt_leave, stmtMeaning_leave]
      exact SimulatesAt.tick fun _ _ => .const fun _ _ states => .ok
        (states.setJump .Leave (fun _ _ => rfl) rfl fun _ => rfl)

/-- A statement simulates its rewriting.  At a site that means the same it simulates
itself. -/
theorem stmt_of_below (replaces : Replaces site R) (stmt stmt' : Stmt)
    (rewrites : Rewrites site stmt stmt') :
    StateSimulates R (StateRecoded R) (runStmt codeOverride stmt)
      (stmtMeaning codeOverride' stmt') fuel := by
  apply kept_of_below below overrides (fun _ _ => id) ?_ rewrites
  intro old new replaced
  rcases replaces.sites replaced with same | related
  · rw [← same codeOverride']
    exact kept_of_below below overrides (fun _ _ => False.elim) (fun _ _ => False.elim)
      (.refl old)
  · intro state state' states
    exact .of_approximates ((growing_stmt codeOverride old).approximates_meaning fuel state)
      (related overrides states)

theorem loop_of_below (cond : Expr) (post post' body body' : List Stmt)
    (posts : Rewrites site (.Block post) (.Block post'))
    (bodies : Rewrites site (.Block body) (.Block body')) (unset : R default default) :
    StateSimulates R (StateRecoded R)
      (fun fuel state => Yul.loop fuel cond post body codeOverride state)
      (stmtMeaning codeOverride' (.For cond post' body')) fuel := by
  intro state state' states
  match fuel, below with
  | 0, _ => exact .gives_up _
  | 1, _ => exact .gives_up _
  | fuel + 2, below =>
      have lt : fuel < fuel + 2 := Nat.lt_add_of_pos_right (Nat.succ_pos 1)
      have simulates := below fuel lt
      simp only [loop_eq, stmtMeaning_for]
      apply (simulates.expr codeOverride codeOverride' overrides cond _ _
        (states.mkOk unset)).bind
      intro output output' outputs
      refine Simulated.ite ?_ (.ok (outputs.1.overwrite states)) ?_
      · rw [outputs.2]
      · apply (simulates.stmt codeOverride codeOverride' overrides _ _ bodies _ _
          outputs.1).bind
        exact fun after after' afters =>
          afterBody_of_below below overrides cond posts bodies lt states afters

/-- The two contracts define the same functions, up to rewriting. -/
theorem call_of_below (replaces : Replaces site R) (f : YulFunctionName) :
    OutputSimulates R (OutputsRecoded R) (runCall codeOverride f)
      (callMeaning codeOverride' f) fuel := by
  intro input input' inputs
  have codes := inputs.1.runningCode replaces.unset
  generalize running : input.1.runningCode = code,
    running' : input'.1.runningCode = code' at codes
  cases codes with
  | none =>
      rw [runCall_of_absent codeOverride f _ input running,
        callMeaning_of_absent codeOverride' f running']
      exact SimulatesAt.tick (fun _ _ => .const fun _ _ _ => .error (.missing _ _)) input input'
        inputs
  | @some code code' related =>
      have chosen := overrides_getD overrides related
      have definitions := (replaces.rewrites chosen).functions f
      generalize found : (codeOverride.getD code).functions.lookup f = definition,
        found' : (codeOverride'.getD code').functions.lookup f = definition' at definitions
      cases definitions with
      | none =>
          rw [runCall_of_undefined codeOverride _ input running found,
            callMeaning_of_undefined codeOverride' running' found']
          exact SimulatesAt.tick (fun _ _ => .const fun _ _ _ => .error (.same fun _ => id))
            input input' inputs
      | some rewritten =>
          rw [runCall_of_running codeOverride _ input running found,
            callMeaning_of_running codeOverride' running' found']
          cases rewritten with
          | @intro params rets body body' bodies =>
              have returns (less : Nat) (lt : less < fuel) :
                  OutputSimulates R (OutputsRecoded R)
                    (framed (enterCall (.Def params rets body))
                      (leaveCall (.Def params rets body))
                      (runStmt codeOverride (.Block body)))
                    (fun input =>
                      (stmtMeaning codeOverride' (.Block body')
                        (enterCall (.Def params rets body') input)).map
                          (leaveCall (.Def params rets body') input)) less := by
                apply ((below less lt).stmt codeOverride codeOverride' overrides _ _
                  bodies).framed
                · rintro ⟨state, args⟩ ⟨state', args'⟩ ⟨states, rfl⟩
                  exact states.enterCall replaces.unset (.Def params rets body) args
                · intro input input' final final' inputs finals
                  exact inputs.1.leaveCall (.Def params rets body) finals
              exact SimulatesAt.tick returns input input' inputs

theorem dispatcher_of_below (replaces : Replaces site R) :
    OutputSimulates R (StateRecoded R) (runDispatcher codeOverride)
      (dispatcherMeaning codeOverride') fuel := by
  rw [runDispatcher_eq, dispatcherMeaning_eq]
  apply SimulatesAt.tick
  intro less lt state state' states
  have codes := replaces.rewrites (states.codes replaces.unset)
  have body := (below less lt).stmt codeOverride codeOverride' overrides _ _
    (.cons codes.dispatcher .nil) _ _ (states.enterCall replaces.unset (.Def [] [] []) [])
  exact body.map fun _ _ finals => states.leaveCall (.Def [] [] []) finals

end Below

/-- Contracts that are called are recoded, and matched with less fuel. -/
theorem prim_of_below (unset : R default default)
    (below : ∀ less, less < fuel → Simulates site R less) (prim : PrimOp) :
    OutputSimulates R (OutputsRecoded R) (runPrim prim) (primMeaning prim) fuel := by
  rw [runPrim_eq, primMeaning_eq]
  apply SimulatesAt.tick
  intro less lt input input' inputs
  have requests := request_recoded unset inputs.1 prim input'.2
  simp only [primCallWith_eq_answer, inputs.2]
  exact requests.answer (below less lt).dispatcher

end Simulates

/-- Where sound sites are replaced, the interpreter simulates the meaning of the rewriting
at every amount of fuel. -/
theorem Replaces.simulates (replaces : Replaces site R) (fuel : Nat) :
    Simulates site R fuel := by
  induction fuel using Nat.strong_induction_on with
  | _ fuel below =>
      exact
        { args := fun _ _ overrides => Simulates.args_of_below below overrides
          expr := fun _ _ overrides => Simulates.expr_of_below below overrides
          stmt := fun _ _ overrides => Simulates.stmt_of_below below overrides replaces
          prim := Simulates.prim_of_below replaces.unset below
          call := fun _ _ overrides => Simulates.call_of_below below overrides replaces
          dispatcher := fun _ _ overrides =>
            Simulates.dispatcher_of_below below overrides replaces
          branches := fun _ _ overrides => Simulates.branches_of_below below overrides
          loop := fun _ _ overrides cond post post' body body' posts bodies =>
            Simulates.loop_of_below below overrides cond post post' body body' posts bodies
              replaces.unset }

/-! ## The meaning of rewritten code -/

/-- A rewriting keeps the meaning of a statement, up to the codes that are rewritten. -/
theorem Replaces.stmtMeaning_recoded (replaces : Replaces site R)
    {codeOverride codeOverride' : Option YulContract}
    (overrides : Option.Rel R codeOverride codeOverride') {stmt stmt' : Stmt}
    (rewrites : Rewrites site stmt stmt') {state state' : State}
    (states : StateRecoded R state state') :
    Related (StateRecoded R) (ExceptionRecoded R) (stmtMeaning codeOverride stmt state)
      (stmtMeaning codeOverride' stmt' state') := by
  apply (growing_stmt codeOverride stmt).related_of_simulated (growing_stmt codeOverride' stmt')
  · exact .same fun _ => id
  · intro fuel
    exact (replaces.simulates fuel).stmt codeOverride codeOverride' overrides stmt stmt' rewrites
      state state' states
  · intro fuel
    have back := (replaces.symm.simulates fuel).stmt codeOverride' codeOverride
      (overrides_symm overrides) stmt' stmt rewrites.symm state' state states.symm
    exact back.mono (fun _ _ => StateRecoded.symm) fun _ _ => ExceptionRecoded.symm

end YulGasRules.Yul
