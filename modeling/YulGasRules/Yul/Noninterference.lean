import YulGasRules.Yul.Indifference

/-!
# Evaluation does not interfere with strangers

States that differ in the strangers of some code lead to outcomes that differ in the
strangers again, and in the same way: the values that the strangers hold stay as they
are on both sides.  The body of a called function is no exception, although it may use
the names for variables of its own, since it starts in the same state on both sides.

The proof is by strong induction on the fuel.  A loop that starts with a jump pending
runs in the default state, so what is known about the strangers has to hold where they
are unset.
-/

namespace YulGasRules.Yul

open Fuel

variable {X : Set Identifier} {P : PrimOp → Prop} {J : Set JumpKind}
variable {W : StrangerRelation X}

/-! ## The cases of a `switch` -/

/-- The outcomes of the cases of a `switch`. -/
abbrev CasesDiffer (X : Set Identifier) (J : Set JumpKind) (W : StrangerRelation X) :
    List (Literal × Except Exception State) → List (Literal × Except Exception State) → Prop :=
  List.Forall₂ fun outcome outcome' => outcome.1 = outcome'.1 ∧
    Related (Differ X J W) (HaltsDiffer X) outcome.2 outcome'.2

/-- The same case is selected on both sides. -/
theorem selectCase_related (cond : Literal) {default₁ default₂ : Except Exception State}
    {outcomes outcomes' : List (Literal × Except Exception State)}
    (otherwise : Related (Differ X J W) (HaltsDiffer X) default₁ default₂)
    (each : CasesDiffer X J W outcomes outcomes') :
    Related (Differ X J W) (HaltsDiffer X) (selectCase cond default₁ outcomes)
      (selectCase cond default₂ outcomes') := by
  induction each with
  | nil => exact otherwise
  | cons head _ ih =>
      simp only [selectCase, List.foldr_cons, head.1]
      exact Related.ite Iff.rfl head.2 ih

/-! ## Jumps -/

/-- A jump leaves the state behind as it is, whatever the strangers hold. -/
theorem jump_relatesAt {kind : JumpKind} (escapes : kind ∈ J) {set : State → State}
    (ordinary : ∀ shared store, set (.Ok shared store) = .Checkpoint (kind.jump shared store))
    (exhausted : set .OutOfFuel = .OutOfFuel)
    (pending : ∀ jump, set (.Checkpoint jump) = .Checkpoint jump)
    {comp : Comp Exception State State} (zero : ∀ state, comp 0 state = .error .OutOfFuel)
    (succ : ∀ fuel state, comp (fuel + 1) state = .ok (set state)) (fuel : Nat) :
    RelatesAt (Differ X J W) (Differ X J W) (HaltsDiffer X) comp comp fuel := by
  intro state state' differ
  cases fuel with
  | zero =>
      rw [zero, zero]
      exact .error (.same _)
  | succ fuel =>
      rw [succ, succ]
      exact .ok (differ.setJump escapes ordinary exhausted pending)

variable [FFI]

/-! ## Calls of user functions -/

/-- A user function sees none of the caller's variables. -/
theorem call_relatesAt (codeOverride : Option YulContract) (f : YulFunctionName) (fuel : Nat) :
    RelatesAt (OutputsDiffer X J W) (OutputsDiffer X J W) (HaltsDiffer X)
      (runCall codeOverride f) (runCall codeOverride f) fuel := by
  rintro ⟨state, args⟩ ⟨state', args'⟩ ⟨differ, same⟩
  cases same
  have code : state.runningCode = state'.runningCode :=
    congrArg YulGasRules.State.runningCode differ.toState_eq
  cases running : state'.runningCode with
  | none =>
      rw [runCall_of_absent codeOverride f fuel (state, args) (code.trans running),
        runCall_of_absent codeOverride f fuel (state', args) running]
      cases fuel with
      | zero => exact .error (.same _)
      | succ fuel =>
          simp only [tick, differ.executionEnv_eq]
          exact .error (.same _)
  | some contract =>
      cases found : (codeOverride.getD contract).functions.lookup f with
      | none =>
          rw [runCall_of_undefined codeOverride fuel (state, args) (code.trans running) found,
            runCall_of_undefined codeOverride fuel (state', args) running found]
          cases fuel <;> exact .error (.same _)
      | some definition =>
          rw [runCall_of_running codeOverride fuel (state, args) (code.trans running) found,
            runCall_of_running codeOverride fuel (state', args) running found]
          cases fuel with
          | zero => exact .error (.same _)
          | succ fuel =>
              have entered : enterCall definition (state, args) =
                  enterCall definition (state', args) := differ.enter_eq _ _
              simp only [tick, framed, entered]
              cases runStmt codeOverride (.Block definition.body) fuel
                  (enterCall definition (state', args)) with
              | error exception => exact .error (.same _)
              | ok final => exact .ok ⟨differ.leave final, rfl⟩

/-! ## The evaluator at one amount of fuel -/

/-- Everything that the interpreter evaluates with `fuel` is indifferent to the
variables that it does not mention. -/
structure Noninterferes (X : Set Identifier) (P : PrimOp → Prop) (W : StrangerRelation X)
    (fuel : Nat) : Prop where
  args : ∀ {J} codeOverride {args}, (∀ prim, P prim → PrimIndifferent X J W prim) →
    (∀ arg ∈ args, AvoidsExpr X P arg) →
    RelatesAt (Differ X J W) (OutputsDiffer X J W) (HaltsDiffer X)
      (runArgs codeOverride args) (runArgs codeOverride args) fuel
  expr : ∀ {J} codeOverride {expr}, (∀ prim, P prim → PrimIndifferent X J W prim) →
    AvoidsExpr X P expr →
    RelatesAt (Differ X J W) (OutputsDiffer X J W) (HaltsDiffer X)
      (runExpr codeOverride expr) (runExpr codeOverride expr) fuel
  stmt : ∀ {J} codeOverride {stmt}, (∀ prim, P prim → PrimIndifferent X J W prim) →
    AvoidsStmt X P J stmt →
    RelatesAt (Differ X J W) (Differ X J W) (HaltsDiffer X)
      (runStmt codeOverride stmt) (runStmt codeOverride stmt) fuel
  branches : ∀ {J} codeOverride {branches : List (Literal × List Stmt)},
    (∀ prim, P prim → PrimIndifferent X J W prim) →
    (∀ branch ∈ branches, AvoidsStmt X P J (.Block branch.2)) →
    RelatesAt (Differ X J W) (CasesDiffer X J W) (HaltsDiffer X)
      (fun fuel state => execSwitchCases fuel codeOverride state branches)
      (fun fuel state => execSwitchCases fuel codeOverride state branches) fuel
  loop : ∀ {J} codeOverride {cond post body}, (∀ prim, P prim → PrimIndifferent X J W prim) →
    AvoidsStmt X P J (.For cond post body) →
    RelatesAt (Differ X J W) (Differ X J W) (HaltsDiffer X)
      (fun fuel state => loop fuel cond post body codeOverride state)
      (fun fuel state => loop fuel cond post body codeOverride state) fuel

namespace Noninterferes

variable {fuel : Nat}

/-- Operands are arguments in reverse. -/
theorem operands (noninterferes : Noninterferes X P W fuel)
    (codeOverride : Option YulContract)
    (prims : ∀ prim, P prim → PrimIndifferent X J W prim) {args : List Expr}
    (avoids : ∀ arg ∈ args, AvoidsExpr X P arg) :
    RelatesAt (Differ X J W) (OutputsDiffer X J W) (HaltsDiffer X)
      (runOperands codeOverride args) (runOperands codeOverride args) fuel := by
  have reversed := noninterferes.args codeOverride prims
    fun arg member => avoids arg (List.mem_reverse.mp member)
  apply reversed.framed (fun _ _ differ => differ)
  intro _ _ output output' _ outputs
  exact ⟨outputs.1, congrArg List.reverse outputs.2⟩

section Below

variable (below : ∀ less, less < fuel → Noninterferes X P W less)
variable (codeOverride : Option YulContract)
variable (prims : ∀ prim, P prim → PrimIndifferent X J W prim)

include below prims

theorem args_of_below {args : List Expr} (avoids : ∀ arg ∈ args, AvoidsExpr X P arg) :
    RelatesAt (Differ X J W) (OutputsDiffer X J W) (HaltsDiffer X)
      (runArgs codeOverride args) (runArgs codeOverride args) fuel := by
  cases args with
  | nil =>
      rw [runArgs_nil]
      refine RelatesAt.tick (.same _) fun _ _ => RelatesAt.const ?_
      exact fun _ _ differ => .ok ⟨differ, rfl⟩
  | cons arg args =>
      rw [runArgs_cons]
      apply RelatesAt.tick (.same _)
      intro less lt
      have head := (below less lt).expr codeOverride prims (avoids arg List.mem_cons_self)
      refine head.seq (RelatesAt.tick (.same _) fun last lt' => ?_)
      have tail := (below last (lt'.trans lt)).args codeOverride prims
        fun arg member => avoids arg (List.mem_cons_of_mem _ member)
      apply tail.framed (fun _ _ outputs => outputs.1)
      rintro ⟨_, val⟩ ⟨_, val'⟩ output output' heads tails
      exact ⟨tails.1, congrArg₂ List.cons heads.2 tails.2⟩

/-- Operands, then something that is indifferent with them: a call in any position. -/
theorem applied_of_below {α : Type} {T : α → α → Prop} {args : List Expr}
    (avoids : ∀ arg ∈ args, AvoidsExpr X P arg)
    {comp : Comp Exception (State × List Literal) α}
    (relates : ∀ less, less < fuel →
      RelatesAt (OutputsDiffer X J W) T (HaltsDiffer X) comp comp less) :
    RelatesAt (Differ X J W) T (HaltsDiffer X)
      (tick .OutOfFuel (seq (runOperands codeOverride args) comp))
      (tick .OutOfFuel (seq (runOperands codeOverride args) comp)) fuel :=
  RelatesAt.tick (.same _) fun less lt =>
    ((below less lt).operands codeOverride prims avoids).seq (relates less lt)

/-- An expression that avoids the variables has the same value. -/
theorem expr_of_below {expr : Expr} (avoids : AvoidsExpr X P expr) :
    RelatesAt (Differ X J W) (OutputsDiffer X J W) (HaltsDiffer X)
      (runExpr codeOverride expr) (runExpr codeOverride expr) fuel := by
  have valued : ∀ {output output' : State × List Literal}, OutputsDiffer X J W output output' →
      OutputsDiffer X J W (output.1, output.2.head!) (output'.1, output'.2.head!) :=
    fun outputs => ⟨outputs.1, congrArg List.head! outputs.2⟩
  cases avoids with
  | var stranger =>
      rw [runExpr_var]
      refine RelatesAt.tick (.same _) fun _ _ => RelatesAt.const ?_
      exact fun _ _ differ => .ok ⟨differ, differ.read stranger⟩
  | lit val =>
      rw [runExpr_lit]
      refine RelatesAt.tick (.same _) fun _ _ => RelatesAt.const ?_
      exact fun _ _ differ => .ok ⟨differ, rfl⟩
  | @prim prim args allowed operands =>
      rw [runExpr_prim]
      apply applied_of_below below codeOverride prims operands
      intro less _
      exact (prims prim allowed J (subset_refl J) less).framed (fun _ _ => id)
        fun _ _ _ _ _ => valued
  | call f operands =>
      rw [runExpr_call]
      apply applied_of_below below codeOverride prims operands
      intro less _
      apply RelatesAt.tick (.same _)
      intro last _
      exact (call_relatesAt codeOverride f last).framed (fun _ _ => id) fun _ _ _ _ _ => valued

theorem let_prim_of_below {vars : List Identifier} {prim : PrimOp} {args : List Expr}
    (targets : ∀ var ∈ vars, var ∉ X) (allowed : P prim)
    (operands : ∀ arg ∈ args, AvoidsExpr X P arg) :
    RelatesAt (Differ X J W) (Differ X J W) (HaltsDiffer X)
      (runStmt codeOverride (.Let vars (some (.Call (.inl prim) args))))
      (runStmt codeOverride (.Let vars (some (.Call (.inl prim) args)))) fuel := by
  rw [runStmt_let_prim]
  apply applied_of_below below codeOverride prims operands
  intro less _
  exact (prims prim allowed J (subset_refl J) less).framed (fun _ _ => id)
    fun _ _ _ _ _ outputs => outputs.multifill targets

theorem let_call_of_below {vars : List Identifier} (f : YulFunctionName) {args : List Expr}
    (targets : ∀ var ∈ vars, var ∉ X) (operands : ∀ arg ∈ args, AvoidsExpr X P arg) :
    RelatesAt (Differ X J W) (Differ X J W) (HaltsDiffer X)
      (runStmt codeOverride (.Let vars (some (.Call (.inr f) args))))
      (runStmt codeOverride (.Let vars (some (.Call (.inr f) args)))) fuel := by
  rw [runStmt_let_call]
  apply applied_of_below below codeOverride prims operands
  intro less _
  apply RelatesAt.tick (.same _)
  intro last _
  exact (call_relatesAt codeOverride f last).framed (fun _ _ => id)
    fun _ _ _ _ _ outputs => outputs.multifill targets

/-- A declaration that avoids the variables binds the same values. -/
theorem let_of_below {vars : List Identifier} {expr : Expr}
    (targets : ∀ var ∈ vars.head! :: vars, var ∉ X) (avoids : AvoidsExpr X P expr) :
    RelatesAt (Differ X J W) (Differ X J W) (HaltsDiffer X)
      (runStmt codeOverride (.Let vars (some expr)))
      (runStmt codeOverride (.Let vars (some expr))) fuel := by
  have first := targets _ List.mem_cons_self
  have bound : ∀ var ∈ vars, var ∉ X :=
    fun var member => targets var (List.mem_cons_of_mem _ member)
  cases avoids with
  | var stranger =>
      rw [runStmt_let_var]
      refine RelatesAt.tick (.same _) fun _ _ => RelatesAt.const ?_
      intro state state' differ
      rw [differ.read stranger]
      exact .ok (differ.insert first _)
  | lit val =>
      rw [runStmt_let_lit]
      refine RelatesAt.tick (.same _) fun _ _ => RelatesAt.const ?_
      exact fun _ _ differ => .ok (differ.insert first val)
  | prim allowed operands =>
      exact let_prim_of_below below codeOverride prims bound allowed operands
  | call f operands => exact let_call_of_below below codeOverride prims f bound operands

/-- A call as a statement binds no variables, and anything else is no statement. -/
theorem perform_of_below {expr : Expr} (avoids : AvoidsExpr X P expr) :
    RelatesAt (Differ X J W) (Differ X J W) (HaltsDiffer X)
      (runStmt codeOverride (.ExprStmtCall expr)) (runStmt codeOverride (.ExprStmtCall expr))
      fuel := by
  have none : ∀ var ∈ ([] : List Identifier), var ∉ X := fun _ => nofun
  cases avoids with
  | var stranger =>
      intro state state' differ
      cases fuel <;> exact .error (.same _)
  | lit val =>
      intro state state' differ
      cases fuel <;> exact .error (.same _)
  | prim allowed operands =>
      rw [runStmt_exprStmt]
      exact let_prim_of_below below codeOverride prims none allowed operands
  | call f operands =>
      rw [runStmt_exprStmt]
      exact let_call_of_below below codeOverride prims f none operands

theorem switch_of_below {cond : Expr} {branches : List (Literal × List Stmt)}
    {default' : List Stmt} (selector : AvoidsExpr X P cond)
    (cases' : ∀ branch ∈ branches, AvoidsStmt X P J (.Block branch.2))
    (otherwise : AvoidsStmt X P J (.Block default')) :
    RelatesAt (Differ X J W) (Differ X J W) (HaltsDiffer X)
      (runStmt codeOverride (.Switch cond branches default'))
      (runStmt codeOverride (.Switch cond branches default')) fuel := by
  intro state state' differ
  cases fuel with
  | zero => exact .error (.same _)
  | succ fuel =>
      have noninterferes := below fuel (Nat.lt_succ_self fuel)
      simp only [runStmt, exec_switch]
      apply (noninterferes.expr codeOverride prims selector state state' differ).bind
      intro output output' outputs
      apply (noninterferes.branches codeOverride prims cases' _ _ outputs.1).bind
      intro outcomes outcomes' each
      apply (noninterferes.stmt codeOverride prims otherwise _ _ outputs.1).bind
      intro after after' differs
      rw [outputs.2]
      exact selectCase_related output'.2 (.ok differs) each

/-- A statement that avoids the variables keeps the rest the same, if its parts do with
less fuel. -/
theorem stmt_of_below {stmt : Stmt} (avoids : AvoidsStmt X P J stmt) :
    RelatesAt (Differ X J W) (Differ X J W) (HaltsDiffer X)
      (runStmt codeOverride stmt) (runStmt codeOverride stmt) fuel := by
  cases avoids with
  | @block _ stmts each =>
      cases stmts with
      | nil =>
          rw [runStmt_block_nil]
          exact RelatesAt.tick (.same _) fun _ _ => RelatesAt.const fun _ _ differ => .ok differ
      | cons stmt stmts =>
          rw [runStmt_block_cons]
          apply RelatesAt.tick (.same _)
          intro less lt
          have head := (below less lt).stmt codeOverride prims (each stmt List.mem_cons_self)
          have rest : AvoidsStmt X P J (.Block stmts) :=
            .block fun stmt member => each stmt (List.mem_cons_of_mem _ member)
          exact head.seq ((below less lt).stmt codeOverride prims rest)
  | @declare _ vars targets =>
      rw [runStmt_declare]
      refine RelatesAt.tick (.same _) fun _ _ => RelatesAt.const ?_
      intro state state' differ
      refine .ok ?_
      induction vars with
      | nil => exact differ
      | cons var vars ih =>
          exact (ih fun other member => targets other (List.mem_cons_of_mem _ member)).insert
            (targets var List.mem_cons_self) _
  | bind targets value => exact let_of_below below codeOverride prims targets value
  | perform effect => exact perform_of_below below codeOverride prims effect
  | switch selector cases' otherwise =>
      exact switch_of_below below codeOverride prims selector cases' otherwise
  | «for» guard update iterated =>
      rw [runStmt_for]
      exact RelatesAt.tick (.same _) fun less lt =>
        (below less lt).loop codeOverride prims (.for guard update iterated)
  | «if» guard taken =>
      rw [runStmt_if]
      apply RelatesAt.tick (.same _)
      intro less lt
      apply ((below less lt).expr codeOverride prims guard).seq
      refine RelatesAt.branch ?_ ?_ (RelatesAt.const fun _ _ outputs => .ok outputs.1)
      · intro output output' outputs
        rw [outputs.2]
      · exact ((below less lt).stmt codeOverride prims taken).framed
          (fun _ _ outputs => outputs.1) fun _ _ _ _ _ differ => differ
  | «continue» escapes =>
      exact jump_relatesAt escapes (fun _ _ => rfl) rfl (fun _ => rfl) (fun _ => rfl)
        (fun _ _ => rfl) fuel
  | «break» escapes =>
      exact jump_relatesAt escapes (fun _ _ => rfl) rfl (fun _ => rfl) (fun _ => rfl)
        (fun _ _ => rfl) fuel
  | leave escapes =>
      exact jump_relatesAt escapes (fun _ _ => rfl) rfl (fun _ => rfl) (fun _ => rfl)
        (fun _ _ => rfl) fuel

/-- Each branch of a switch keeps the rest the same. -/
theorem branches_of_below {branches : List (Literal × List Stmt)}
    (avoids : ∀ branch ∈ branches, AvoidsStmt X P J (.Block branch.2)) :
    RelatesAt (Differ X J W) (CasesDiffer X J W) (HaltsDiffer X)
      (fun fuel state => execSwitchCases fuel codeOverride state branches)
      (fun fuel state => execSwitchCases fuel codeOverride state branches) fuel := by
  intro state state' differ
  cases branches with
  | nil => cases fuel <;> exact .ok .nil
  | cons branch branches =>
      cases fuel with
      | zero => exact .error (.same _)
      | succ fuel =>
          have noninterferes := below fuel (Nat.lt_succ_self fuel)
          obtain ⟨val, stmts⟩ := branch
          simp only [execSwitchCases_cons]
          have head := noninterferes.stmt codeOverride prims (avoids _ List.mem_cons_self)
            state state' differ
          have tail := noninterferes.branches codeOverride prims
            (fun branch member => avoids branch (List.mem_cons_of_mem _ member))
            state state' differ
          exact tail.map fun _ _ each => .cons ⟨rfl, head⟩ each

/-- After the body a loop goes on unless the body has broken off. -/
theorem afterBody_of_below {less : Nat} (lt : less < fuel) {cond : Expr} {post body : List Stmt}
    (guard : AvoidsExpr X P cond) (update : AvoidsStmt X P J (.Block post))
    (iterated : AvoidsStmt X P (insert .Continue (insert .Break J)) (.Block body))
    {before before' after after' : State} (start : Differ X J W before before')
    (differ : Differ X (insert .Continue (insert .Break J)) W after after') :
    Related (Differ X J W) (HaltsDiffer X)
      (afterBody codeOverride cond post body less before after)
      (afterBody codeOverride cond post body less before' after') := by
  have noninterferes := below less lt
  have none : ∅ ⊆ J := Set.empty_subset J
  have again : AvoidsStmt X P J (.For cond post body) := .for guard update iterated
  have proceed {revived revived' : State} (differ : Differ X J W revived revived') :
      Related (Differ X J W) (HaltsDiffer X)
        (nextIteration codeOverride cond post body less before revived)
        (nextIteration codeOverride cond post body less before' revived') := by
    apply (noninterferes.stmt codeOverride prims update _ _ differ).bind
    intro next next' nexts
    apply (noninterferes.stmt codeOverride prims again _ _ (nexts.overwrite start)).map
    exact fun _ _ lasts => lasts.overwrite start
  have revived := differ.reviveJump.mono none fun _ _ => id
  cases differ with
  | ok shared stores => exact proceed revived
  | outOfFuel => exact .ok (.overwrite .outOfFuel start)
  | @jump kind escapes shared _ _ stores =>
      cases kind with
      | Continue => exact proceed revived
      | Break => exact .ok (revived.overwrite start)
      | Leave =>
          have leaves : .Leave ∈ J := by simpa using escapes
          exact .ok (.overwrite (.jump leaves shared stores) start)

/-- A loop turns equally often on both sides. -/
theorem loop_of_below (unset : W (fun _ => ⟨0⟩) (fun _ => ⟨0⟩)) {cond : Expr}
    {post body : List Stmt} (avoids : AvoidsStmt X P J (.For cond post body)) :
    RelatesAt (Differ X J W) (Differ X J W) (HaltsDiffer X)
      (fun fuel state => Yul.loop fuel cond post body codeOverride state)
      (fun fuel state => Yul.loop fuel cond post body codeOverride state) fuel := by
  intro state state' differ
  match fuel, below with
  | 0, _ => exact .error (.same _)
  | 1, _ => exact .error (.same _)
  | fuel + 2, below =>
      have lt : fuel < fuel + 2 := Nat.lt_add_of_pos_right (Nat.succ_pos 1)
      have noninterferes := below fuel lt
      cases avoids with
      | «for» guard update iterated =>
          have start := (differ.mkOk unset).mono (Set.empty_subset J) fun _ _ => id
          have more : J ⊆ insert .Continue (insert .Break J) :=
            (Set.subset_insert _ _).trans (Set.subset_insert _ _)
          simp only [loop_eq]
          apply (noninterferes.expr codeOverride prims guard _ _ start).bind
          intro output output' outputs
          rw [outputs.2]
          apply Related.ite Iff.rfl (.ok (outputs.1.overwrite differ))
          have iteration := noninterferes.stmt codeOverride
            (fun prim allowed J' larger => prims prim allowed J' (more.trans larger)) iterated
          apply (iteration _ _ (outputs.1.mono more fun _ _ => id)).bind
          intro after after' afters
          exact afterBody_of_below below codeOverride prims lt guard update iterated
            differ afters

end Below

end Noninterferes

/-- The interpreter does not interfere with the strangers of the code, whatever is
known about them that holds where they are unset. -/
theorem noninterferes (unset : W (fun _ => ⟨0⟩) (fun _ => ⟨0⟩)) (fuel : Nat) :
    Noninterferes X P W fuel := by
  induction fuel using Nat.strong_induction_on with
  | _ fuel below =>
      exact
        { args := fun codeOverride _ prims avoids =>
            Noninterferes.args_of_below below codeOverride prims avoids
          expr := fun codeOverride _ prims avoids =>
            Noninterferes.expr_of_below below codeOverride prims avoids
          stmt := fun codeOverride _ prims avoids =>
            Noninterferes.stmt_of_below below codeOverride prims avoids
          branches := fun codeOverride _ prims avoids =>
            Noninterferes.branches_of_below below codeOverride prims avoids
          loop := fun codeOverride _ _ _ prims avoids =>
            Noninterferes.loop_of_below below codeOverride prims unset avoids }

/-- The meaning of a statement does not interfere with its strangers either. -/
theorem stmtMeaning_related (unset : W (fun _ => ⟨0⟩) (fun _ => ⟨0⟩))
    (codeOverride : Option YulContract)
    (prims : ∀ prim, P prim → PrimIndifferent X J W prim) {stmt : Stmt}
    (avoids : AvoidsStmt X P J stmt) {state state' : State}
    (differ : Differ X J W state state') :
    Related (Differ X J W) (HaltsDiffer X) (stmtMeaning codeOverride stmt state)
      (stmtMeaning codeOverride stmt state') := by
  have growing := growing_stmt codeOverride stmt
  exact growing.related_meaning growing
    (fun fuel => (noninterferes unset fuel).stmt codeOverride prims avoids) differ

/-- A block on both sides that does not mention the strangers hands what is known about
them on to the rest. -/
theorem stmtMeaning_block_append_related {α : State → State → Prop}
    (unset : W (fun _ => ⟨0⟩) (fun _ => ⟨0⟩)) (codeOverride : Option YulContract)
    (prims : ∀ prim, P prim → PrimIndifferent X J W prim) {stmts rest rest' : List Stmt}
    (avoids : AvoidsStmt X P J (.Block stmts))
    (follows : ∀ state state', Differ X J W state state' →
      Related α (HaltsDiffer X) (stmtMeaning codeOverride (.Block rest) state)
        (stmtMeaning codeOverride (.Block rest') state'))
    {state state' : State} (differ : Differ X J W state state') :
    Related α (HaltsDiffer X) (stmtMeaning codeOverride (.Block (stmts ++ rest)) state)
      (stmtMeaning codeOverride (.Block (stmts ++ rest')) state') := by
  rw [stmtMeaning_block_append, stmtMeaning_block_append]
  exact (stmtMeaning_related unset codeOverride prims avoids differ).bind follows

end YulGasRules.Yul
