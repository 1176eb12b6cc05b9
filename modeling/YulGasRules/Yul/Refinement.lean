import YulGasRules.Machine.Accounts
import YulGasRules.Yul.Monotone
import YulGasRules.Yul.World

/-!
# The interpreter refines the system

Every world that an evaluation shows, when it ends or when it halts, is the end of a run
of the system from the world at its start.  For the primitive operations this is seen
operation by operation, and for calls of other contracts request by request.  The rest
of the interpreter moves variables and jumps around and leaves the world alone.
-/

namespace YulGasRules.Yul

open Fuel

/-! ## Requests -/

/-- The request asks for nothing but what the system does: an outcome is reached, and a
callee is entered and left. -/
def Request.Within (world : World) : Request → Prop
  | .done outcome => OutputReaches world outcome
  | .run _ start return' => ∃ outer, World.system.Runs world outer ∧
      World.Enters outer start.world ∧
      ∀ last, Ends (fun output => World.Leaves outer last.world output.1.world)
        (fun exception => ∀ shown, ¬exception.Shows shown) (return' last)

/-- What is requested may come after a run. -/
theorem Request.Within.after {world middle : World} {request : Request}
    (run : World.system.Runs world middle) (within : request.Within middle) :
    request.Within world := by
  cases request with
  | done outcome => exact Reaches.after run within
  | run codeOverride start return' =>
      rcases within with ⟨outer, reached, entered, left⟩
      exact ⟨outer, run.trans reached, entered, left⟩

/-- What the callee does makes a nested run. -/
theorem contractCall_reaches {callee : Option YulContract → State → Outcome (List Literal)}
    (reaches : ∀ codeOverride state, OutputReaches state.world (callee codeOverride state))
    {outer : World} {start : State} (entered : World.Enters outer start.world)
    {return' : State → Outcome (List Literal)}
    (left : ∀ last, Ends (fun output => World.Leaves outer last.world output.1.world)
      (fun exception => ∀ shown, ¬exception.Shows shown) (return' last))
    (codeOverride : Option YulContract) :
    OutputReaches outer (contractCall callee codeOverride start return') := by
  have nested (last : State) (run : World.system.Runs start.world last.world) :
      OutputReaches outer (return' last) :=
    (left last).mono (fun _ leaves => .nested entered run leaves)
      fun _ shows shown raises => (shows shown raises).elim
  have inner := reaches codeOverride start
  simp only [contractCall]
  generalize callee codeOverride start = outcome at inner
  cases outcome with
  | ok output => exact nested output.1 inner
  | error exception =>
      cases exception with
      | YulHalt last value => exact nested last (inner last.world rfl)
      | _ => exact Reaches.silent fun _ => id

/-- A request within the system is answered within it, if callees are. -/
theorem Request.Within.answer
    {callee : Option YulContract → State → Outcome (List Literal)}
    (reaches : ∀ codeOverride state, OutputReaches state.world (callee codeOverride state))
    {world : World} {request : Request} (within : request.Within world) :
    OutputReaches world (request.answer callee) := by
  cases request with
  | done outcome => exact within
  | run codeOverride start return' =>
      rcases within with ⟨outer, run, entered, left⟩
      exact Reaches.after run (contractCall_reaches reaches entered left codeOverride)

/-! ### What the four calls ask for -/

/-- A call without a callee keeps the world, but for a transfer. -/
theorem buildContractCallEmptyReturnState_reaches {state : State}
    {accountMap₁ : Option (AccountMap .Yul)} (val : Literal)
    (kept : ∀ shared store, state = .Ok shared store →
      World.system.Runs shared.toState
        { shared.toState with accountMap := accountMap₁.getD shared.accountMap }) :
    OutputReaches state.world (buildContractCallEmptyReturnState state accountMap₁ val) := by
  cases state with
  | Ok shared store => exact .of_runs (kept shared store rfl)
  | OutOfFuel => exact Reaches.silent fun _ => id
  | Checkpoint jump => exact .of_eq rfl

/-- A callee that ends is left for the caller. -/
theorem contractCallReturn_leaves {outer : World} {s₀ : State}
    (env : s₀.executionEnv = outer.executionEnv) (memory : ByteArray) (varstore : VarStore)
    (outOffset outSize : UInt256) (last : State) :
    Ends (fun output => World.Leaves outer last.world output.1.world)
      (fun exception => ∀ shown, ¬exception.Shows shown)
      (contractCallReturn s₀ memory varstore outOffset outSize last) := by
  cases last with
  | Ok shared store =>
      rw [contractCallReturn, env]
      exact .resume outer shared.toState (.inl rfl)
  | OutOfFuel => exact fun _ => id
  | Checkpoint jump => exact .leak outer jump.shared.toState

/-- A call that transfers value has the permission to, or transfers nothing. -/
theorem transferRequest_within {s₀ : State} {value : Literal} {toAddr : AccountAddress}
    {call : AccountMap .Yul → Request}
    (within : ∀ accountMap₁, (s₀.executionEnv.perm = true ∨ value = ⟨0⟩) →
      AccountMap.transferBalance .Yul s₀.sharedState.accountMap s₀.executionEnv.codeOwner
        toAddr value = some accountMap₁ → (call accountMap₁).Within s₀.world) :
    (transferRequest s₀ value toAddr call).Within s₀.world := by
  simp only [transferRequest]
  split
  · exact Reaches.silent fun _ => id
  · rename_i refused
    have allowed : s₀.executionEnv.perm = true ∨ value = ⟨0⟩ := by
      by_contra neither
      rw [not_or] at neither
      exact refused neither
    split
    · exact buildContractCallEmptyReturnState_reaches ⟨0⟩ fun shared _ _ => .refl shared.toState
    · rename_i accountMap₁ paid
      exact within accountMap₁ allowed paid

/-- A call is within the system if what it does without a callee is, and so is the entry
of the callee. -/
theorem ContractCall.request_within {call : ContractCall} {s₀ : State} {world : World}
    {return' : VarStore → State → Outcome (List Literal)}
    (caller : World.system.Runs world s₀.world)
    (limit : ∀ shared store, s₀ = .Ok shared store → World.system.Runs shared.toState
      { shared.toState with accountMap := call.limitMap.getD shared.accountMap })
    (missing : ∀ shared store, s₀ = .Ok shared store → World.system.Runs shared.toState
      { shared.toState with accountMap := call.accountMap₁.getD shared.accountMap })
    (found : ∀ shared store account, s₀ = .Ok shared store →
      shared.executionEnv.depth < 1024 →
      shared.accountMap.lookup call.address = some account →
      (Request.run (call.codeOverride account.code)
        (.Ok (call.start shared account.code) default) (return' store)).Within world) :
    (call.request s₀ return').Within world := by
  simp only [ContractCall.request]
  split
  · exact Reaches.after caller (buildContractCallEmptyReturnState_reaches ⟨0⟩ limit)
  · rename_i shallow
    cases s₀ with
    | OutOfFuel => exact Reaches.silent fun _ => id
    | Checkpoint jump => exact caller
    | Ok shared store =>
        dsimp only
        split
        · exact Reaches.after caller (buildContractCallEmptyReturnState_reaches ⟨1⟩ missing)
        · rename_i account present
          exact found shared store account rfl (Nat.lt_of_not_le shallow) present

section Calls

variable {s₀ : State}

/-- The accounts after a transfer are those after a step of the system. -/
theorem runs_transfer {shared : SharedState .Yul} {value : Literal} {toAddr : AccountAddress}
    {accountMap₁ : AccountMap .Yul}
    (allowed : shared.executionEnv.perm = true ∨ value = ⟨0⟩)
    (paid : AccountMap.transferBalance .Yul shared.accountMap shared.executionEnv.codeOwner
      toAddr value = some accountMap₁) :
    World.system.Runs shared.toState { shared.toState with accountMap := accountMap₁ } :=
  .step (.transfer shared.toState toAddr value allowed paid)

/-- An account that is there before a transfer is there afterwards, with its code. -/
theorem exists_lookup_of_transfer {σ σ' : AccountMap .Yul} {address : AccountAddress}
    {account : Account .Yul} {fromAddr toAddr : AccountAddress} {value : Literal}
    (paid : AccountMap.transferBalance .Yul σ fromAddr toAddr value = some σ')
    (present : σ.lookup address = some account) :
    ∃ account', σ'.lookup address = some account' ∧ account'.code = account.code := by
  have evolves : (Account.identity .Yul).Evolves σ σ' := AccountMap.identity_of_transfer paid
  rcases evolves.old present with ⟨account', present', same, _⟩
  exact ⟨account', present', same⟩

/-- The calls are requests within the system, one by one. -/
theorem callRequest_within (args : List Literal) : (callRequest s₀ args).Within s₀.world := by
  fun_cases callRequest s₀ args with
  | case1 _ address_arg value inOffset inSize outOffset outSize _ address =>
      apply transferRequest_within
      intro accountMap₁ allowed paid
      apply ContractCall.request_within (.refl _)
      · rintro shared store rfl
        exact .refl _
      · rintro shared store rfl
        exact runs_transfer allowed paid
      · rintro shared store account rfl shallow present
        rcases exists_lookup_of_transfer paid present with ⟨account', present', same⟩
        have entered := World.Enters.call
          { shared.toState with accountMap := accountMap₁ } shared.executionEnv.codeOwner value
          (calldataOf (.Ok shared store) inOffset inSize) present' shallow (.inl rfl) id
        rw [World.enter, same] at entered
        exact ⟨_, runs_transfer allowed paid, entered,
          contractCallReturn_leaves rfl _ _ _ _⟩
  | case2 => exact OutputReaches.invalidArguments

theorem callcodeRequest_within (args : List Literal) :
    (callcodeRequest s₀ args).Within s₀.world := by
  fun_cases callcodeRequest s₀ args with
  | case1 _ address_arg value inOffset inSize outOffset outSize _ =>
      apply transferRequest_within
      intro accountMap₁ allowed paid
      apply ContractCall.request_within (.refl _)
      · rintro shared store rfl
        exact runs_transfer allowed paid
      · rintro shared store rfl
        exact runs_transfer allowed paid
      · rintro shared store account rfl shallow present
        rcases exists_lookup_of_transfer paid present with ⟨account', present', same⟩
        have entered := World.Enters.call
          { shared.toState with accountMap := accountMap₁ } shared.executionEnv.codeOwner value
          (calldataOf (.Ok shared store) inOffset inSize) present' shallow (.inr rfl) id
        rw [World.enter, same] at entered
        exact ⟨_, runs_transfer allowed paid, entered,
          contractCallReturn_leaves rfl _ _ _ _⟩
  | case2 => exact OutputReaches.invalidArguments

theorem delegatecallRequest_within (args : List Literal) :
    (delegatecallRequest s₀ args).Within s₀.world := by
  fun_cases delegatecallRequest s₀ args with
  | case1 _ address_arg inOffset inSize outOffset outSize _ =>
      apply ContractCall.request_within (.refl _)
      · rintro shared store rfl
        exact .refl _
      · rintro shared store rfl
        exact .refl _
      · rintro shared store account rfl shallow present
        exact ⟨shared.toState, .refl _,
          .call shared.toState _ _ _ present shallow (.inr rfl) id,
          contractCallReturn_leaves rfl _ _ _ _⟩
  | case2 => exact OutputReaches.invalidArguments

/-- A static call gives the caller its permission back, unless it does not take place. -/
theorem staticcallReturn_leaves {shared : SharedState .Yul} {store : VarStore}
    (memory : ByteArray) (varstore : VarStore) (outOffset outSize : UInt256) (last : State) :
    Ends (fun output => World.Leaves shared.toState last.world output.1.world)
      (fun exception => ∀ shown, ¬exception.Shows shown)
      ((contractCallReturn (.Ok shared store) memory varstore outOffset outSize last).map
        fun output => (setStatic output.1 shared.executionEnv.perm, output.2)) := by
  cases last with
  | Ok lastShared lastStore => exact .resume shared.toState lastShared.toState (.inr rfl)
  | OutOfFuel => exact fun _ => id
  | Checkpoint jump => exact .leak shared.toState jump.shared.toState

theorem runs_setStatic (state : State) :
    World.system.Runs state.world (setStatic state false).world := by
  cases state with
  | Ok shared store => exact .step (.becomeStatic shared.toState)
  | OutOfFuel => exact .refl _
  | Checkpoint jump => exact .refl _

theorem staticcallRequest_within (args : List Literal) :
    (staticcallRequest s₀ args).Within s₀.world := by
  fun_cases staticcallRequest s₀ args with
  | case1 => exact Reaches.silent fun _ => id
  | case2 _ address_arg inOffset inSize outOffset outSize _ perm s₀Static address =>
      apply ContractCall.request_within (runs_setStatic s₀)
      · exact fun shared _ _ => .refl shared.toState
      · exact fun shared _ _ => .refl shared.toState
      · intro static store account ok shallow present
        cases s₀ with
        | OutOfFuel => cases ok
        | Checkpoint jump => cases ok
        | Ok shared _ =>
            cases ok
            exact ⟨shared.toState, .refl _,
              .call shared.toState _ _ _ present shallow (.inl rfl) Bool.noConfusion,
              staticcallReturn_leaves _ _ _ _⟩
  | case3 => exact OutputReaches.invalidArguments

end Calls

/-- Every request of an operation is within the system. -/
theorem request_within [FFI] (s₀ : State) (prim : PrimOp) (args : List Literal) :
    (request s₀ prim args).Within s₀.world := by
  simp only [request]
  split
  · exact Reaches.silent fun _ => id
  · rename_i allowed
    split
    · exact callRequest_within args
    · exact staticcallRequest_within args
    · exact callcodeRequest_within args
    · exact delegatecallRequest_within args
    · apply (step_reaches prim s₀ args _).map
      · exact fun _ run => run
      · intro violating
        by_contra forbidden
        exact allowed ⟨forbidden, violating⟩

/-! ## Calls of user functions -/

/-- A loop or a call that is begun while a jump is pending loses the world. -/
theorem runs_mkOk (state : State) : World.system.Runs state.world state.mkOk.world := by
  cases state with
  | Ok shared store => exact .refl _
  | OutOfFuel => exact .refl _
  | Checkpoint jump => exact .step (.lose _)

/-- Both states that may be kept have been reached. -/
theorem runs_overwrite {world : World} {state before : State}
    (run : World.system.Runs world state.world) (earlier : World.system.Runs world before.world) :
    World.system.Runs world (state.overwrite? before).world := by
  rcases world_overwrite state before with same | same
  · rw [same]
    exact run
  · rw [same]
    exact earlier

theorem runs_enterCall (definition : FunctionDefinition) (input : State × List Literal) :
    World.system.Runs input.1.world (enterCall definition input).world := by
  have run := runs_mkOk (input.1.initcall definition.params input.2)
  rw [world_initcall] at run
  exact run

/-- A user function is left for the caller in the world that it has come to. -/
theorem runs_leaveCall (definition : FunctionDefinition) (input : State × List Literal)
    (final : State) (run : World.system.Runs input.1.world final.world) :
    World.system.Runs input.1.world (leaveCall definition input final).1.world := by
  simp only [leaveCall, world_setStore]
  apply runs_overwrite
  · rw [world_reviveJump]
    exact run
  · exact .refl _

/-! ## The interpreter -/

/-- Results that come with a state. -/
abbrev ReachesOutput {σ α : Type} (view : σ → World) (comp : Comp Exception σ (State × α))
    (fuel : Nat) : Prop :=
  ReachesAt World.system Exception.Shows view (fun output => output.1.world) comp fuel

/-- The computation ends and halts in worlds that runs lead to. -/
abbrev ReachesState {σ : Type} (view : σ → World) (comp : Comp Exception σ State)
    (fuel : Nat) : Prop :=
  ReachesAt World.system Exception.Shows view State.world comp fuel

/-- The state with values already computed. -/
abbrev inputWorld {α : Type} (input : State × α) : World := input.1.world

/-- The outcomes of the cases of a `switch`, of which one may be selected. -/
def CasesReach (world : World) :
    Except Exception (List (Literal × Except Exception State)) → Prop :=
  Ends (fun outcomes => ∀ outcome ∈ outcomes, StateReaches world outcome.2)
    (fun exception => ∀ shown, ¬exception.Shows shown)

theorem silent_outOfFuel (world : World) : ¬Exception.OutOfFuel.Shows world := id

/-- A computation that keeps the world and needs a single unit of fuel. -/
theorem reachesState_tick_const {image : State → State}
    (same : ∀ state, (image state).world = state.world) (fuel : Nat) :
    ReachesState State.world (tick .OutOfFuel fun _ state => .ok (image state)) fuel := by
  apply ReachesAt.tick silent_outOfFuel
  intro less lt state
  simp only [Reaches, ends_ok, same]
  exact .refl _

/-- Statements that only bind variables or set a jump stay in their world. -/
theorem reachesState_steady {comp : Comp Exception State State} {image : State → State}
    (same : ∀ state, (image state).world = state.world)
    (zero : ∀ state, comp 0 state = .error .OutOfFuel)
    (succ : ∀ fuel state, comp (fuel + 1) state = .ok (image state)) {fuel : Nat} :
    ReachesState State.world comp fuel := by
  intro state
  cases fuel with
  | zero =>
      rw [zero]
      exact Reaches.silent silent_outOfFuel
  | succ fuel =>
      rw [succ, Reaches, ends_ok, same]
      exact .refl _

theorem reachesOutput_tick_const {α : Type} (value : State → α) (fuel : Nat) :
    ReachesOutput State.world (tick .OutOfFuel fun _ state => .ok (state, value state)) fuel :=
  ReachesAt.tick silent_outOfFuel fun _ _ state => .refl state.world

theorem reachesState_asBinding {vars : List Identifier}
    {comp : Comp Exception (State × List Literal) (State × List Literal)} {fuel : Nat}
    (reaches : ReachesOutput inputWorld comp fuel) :
    ReachesState inputWorld (asBinding vars comp) fuel := by
  apply reaches.framed fun _ => .refl _
  intro outer output run
  rw [world_multifill]
  exact run

theorem reachesOutput_asValue
    {comp : Comp Exception (State × List Literal) (State × List Literal)} {fuel : Nat}
    (reaches : ReachesOutput inputWorld comp fuel) :
    ReachesOutput inputWorld (asValue comp) fuel :=
  reaches.framed (fun _ => .refl _) fun _ _ run => run

/-- Whichever case is selected, its outcome is reached. -/
theorem selectCase_reaches {world : World} {cond : Literal}
    {default' : Except Exception State}
    {outcomes : List (Literal × Except Exception State)}
    (otherwise : StateReaches world default')
    (each : ∀ outcome ∈ outcomes, StateReaches world outcome.2) :
    StateReaches world (selectCase cond default' outcomes) := by
  induction outcomes with
  | nil => exact otherwise
  | cons outcome outcomes ih =>
      simp only [selectCase, List.foldr_cons]
      split
      · exact each outcome List.mem_cons_self
      · exact ih fun outcome' member => each outcome' (List.mem_cons_of_mem _ member)

section Interpreter

variable [FFI] (codeOverride : Option YulContract)

/-- Everything that the interpreter evaluates refines the system at an amount of fuel. -/
structure Refines (fuel : Nat) : Prop where
  args : ∀ codeOverride args, ReachesOutput State.world (runArgs codeOverride args) fuel
  expr : ∀ codeOverride expr, ReachesOutput State.world (runExpr codeOverride expr) fuel
  stmt : ∀ codeOverride stmt, ReachesState State.world (runStmt codeOverride stmt) fuel
  prim : ∀ prim, ReachesOutput inputWorld (runPrim prim) fuel
  call : ∀ codeOverride f, ReachesOutput inputWorld (runCall codeOverride f) fuel
  dispatcher : ∀ codeOverride, ReachesOutput State.world (runDispatcher codeOverride) fuel
  branches : ∀ codeOverride state branches,
    CasesReach state.world (execSwitchCases fuel codeOverride state branches)
  loop : ∀ codeOverride cond post body,
    ReachesState State.world
      (fun fuel state => loop fuel cond post body codeOverride state) fuel

namespace Refines

variable {fuel : Nat}

theorem operands (refines : Refines fuel) (args : List Expr) :
    ReachesOutput State.world (runOperands codeOverride args) fuel :=
  (refines.args codeOverride args.reverse).framed (fun _ => .refl _) fun _ _ run => run

section Below

variable (below : ∀ less, less < fuel → Refines less)

include below

theorem args_of_below (args : List Expr) :
    ReachesOutput State.world (runArgs codeOverride args) fuel := by
  cases args with
  | nil =>
      rw [runArgs_nil]
      exact reachesOutput_tick_const _ fuel
  | cons arg args =>
      rw [runArgs_cons]
      apply ReachesAt.tick silent_outOfFuel
      intro less lt
      apply ((below less lt).expr codeOverride arg).seq
      apply ReachesAt.tick silent_outOfFuel
      intro last lt'
      exact ((below last (lt'.trans lt)).args codeOverride args).framed (fun _ => .refl _)
        fun _ _ run => run

/-- Operands, then something that reaches worlds from there: a call in any position. -/
theorem applied_of_below {α : Type} {ended : α → World} (args : List Expr)
    {comp : Comp Exception (State × List Literal) α}
    (reaches : ∀ less, less < fuel →
      ReachesAt World.system Exception.Shows inputWorld ended comp less) :
    ReachesAt World.system Exception.Shows State.world ended
      (tick .OutOfFuel (seq (runOperands codeOverride args) comp)) fuel :=
  ReachesAt.tick silent_outOfFuel fun less lt =>
    ((below less lt).operands codeOverride args).seq (reaches less lt)

theorem expr_of_below (expr : Expr) :
    ReachesOutput State.world (runExpr codeOverride expr) fuel := by
  cases expr with
  | Var id =>
      rw [runExpr_var]
      exact reachesOutput_tick_const _ fuel
  | Lit val =>
      rw [runExpr_lit]
      exact reachesOutput_tick_const _ fuel
  | Call f args =>
      cases f with
      | inl prim =>
          rw [runExpr_prim]
          exact applied_of_below codeOverride below args fun less lt =>
            reachesOutput_asValue ((below less lt).prim prim)
      | inr f =>
          rw [runExpr_call]
          apply applied_of_below codeOverride below args
          intro less lt
          apply ReachesAt.tick silent_outOfFuel
          intro last lt'
          exact reachesOutput_asValue ((below last (lt'.trans lt)).call codeOverride f)

theorem let_of_below (vars : List Identifier) (expr : Expr) :
    ReachesState State.world (runStmt codeOverride (.Let vars (some expr))) fuel := by
  cases expr with
  | Var id =>
      rw [runStmt_let_var]
      exact reachesState_tick_const (fun state => world_insert state _ _) fuel
  | Lit val =>
      rw [runStmt_let_lit]
      exact reachesState_tick_const (fun state => world_insert state _ _) fuel
  | Call f args =>
      cases f with
      | inl prim =>
          rw [runStmt_let_prim]
          exact applied_of_below codeOverride below args fun less lt =>
            reachesState_asBinding ((below less lt).prim prim)
      | inr f =>
          rw [runStmt_let_call]
          apply applied_of_below codeOverride below args
          intro less lt
          apply ReachesAt.tick silent_outOfFuel
          intro last lt'
          exact reachesState_asBinding ((below last (lt'.trans lt)).call codeOverride f)

theorem switch_of_below (cond : Expr) (branches : List (Literal × List Stmt))
    (default' : List Stmt) :
    ReachesState State.world (runStmt codeOverride (.Switch cond branches default'))
      fuel := by
  intro state
  cases fuel with
  | zero => exact Reaches.silent silent_outOfFuel
  | succ fuel =>
      have refines := below fuel (Nat.lt_succ_self fuel)
      simp only [runStmt, exec_switch]
      apply (refines.expr codeOverride cond state).bind
      intro output
      have cases' := refines.branches codeOverride output.1 branches
      have otherwise := refines.stmt codeOverride (.Block default') output.1
      generalize execSwitchCases fuel codeOverride output.1 branches = outcomes at cases'
      simp only [runStmt] at otherwise
      generalize exec fuel (.Block default') codeOverride output.1 = outcome at otherwise
      cases outcomes with
      | error exception => exact Reaches.silent cases'
      | ok outcomes =>
          cases outcome with
          | error exception => exact otherwise
          | ok after => exact selectCase_reaches otherwise cases'

/-- A statement runs the system if its parts do with less fuel. -/
theorem stmt_of_below (stmt : Stmt) :
    ReachesState State.world (runStmt codeOverride stmt) fuel := by
  cases stmt with
  | Block stmts =>
      cases stmts with
      | nil =>
          rw [runStmt_block_nil]
          exact reachesState_tick_const (fun _ => rfl) fuel
      | cons stmt stmts =>
          rw [runStmt_block_cons]
          exact ReachesAt.tick silent_outOfFuel fun less lt =>
            ((below less lt).stmt codeOverride stmt).seq
              ((below less lt).stmt codeOverride (.Block stmts))
  | Let vars value =>
      cases value with
      | none =>
          rw [runStmt_declare]
          exact reachesState_tick_const (fun state => world_declare state vars) fuel
      | some expr => exact let_of_below codeOverride below vars expr
  | ExprStmtCall expr =>
      cases expr with
      | Call f args =>
          rw [runStmt_exprStmt]
          exact let_of_below codeOverride below [] (.Call f args)
      | Var _ => cases fuel <;> exact fun _ => Reaches.silent fun _ => id
      | Lit _ => cases fuel <;> exact fun _ => Reaches.silent fun _ => id
  | Switch cond branches default' =>
      exact switch_of_below codeOverride below cond branches default'
  | For cond post body =>
      rw [runStmt_for]
      exact ReachesAt.tick silent_outOfFuel fun less lt =>
        (below less lt).loop codeOverride cond post body
  | If cond body =>
      rw [runStmt_if]
      apply ReachesAt.tick silent_outOfFuel
      intro less lt
      apply ((below less lt).expr codeOverride cond).seq
      apply ReachesAt.branch
      · exact ((below less lt).stmt codeOverride (.Block body)).framed (fun _ => .refl _)
          fun _ _ run => run
      · exact fun output => .refl output.1.world
  | Continue => exact reachesState_steady world_setContinue (fun _ => rfl) fun _ _ => rfl
  | Break => exact reachesState_steady world_setBreak (fun _ => rfl) fun _ _ => rfl
  | Leave => exact reachesState_steady world_setLeave (fun _ => rfl) fun _ _ => rfl

/-- An operation runs the system by itself, or by calls with less fuel. -/
theorem prim_of_below (prim : PrimOp) : ReachesOutput inputWorld (runPrim prim) fuel := by
  rw [runPrim_eq]
  apply ReachesAt.tick silent_outOfFuel
  intro less lt input
  have answered :=
    (request_within input.1 prim input.2).answer (below less lt).dispatcher
  rw [← primCallWith_eq_answer] at answered
  exact answered

theorem call_of_below (f : YulFunctionName) :
    ReachesOutput inputWorld (runCall codeOverride f) fuel := by
  intro input
  cases running : input.1.runningCode with
  | none =>
      rw [runCall_of_absent codeOverride f _ input running]
      exact ReachesAt.tick silent_outOfFuel (fun _ _ _ => Reaches.silent fun _ => id) input
  | some code =>
      cases found : (codeOverride.getD code).functions.lookup f with
      | none =>
          rw [runCall_of_undefined codeOverride _ input running found]
          exact ReachesAt.tick silent_outOfFuel (fun _ _ _ => Reaches.silent fun _ => id) input
      | some definition =>
          rw [runCall_of_running codeOverride _ input running found]
          have body (less : Nat) (lt : less < fuel) : ReachesOutput inputWorld
              (framed (enterCall definition) (leaveCall definition)
                (runStmt codeOverride (.Block definition.body))) less :=
            ((below less lt).stmt codeOverride (.Block definition.body)).framed
              (runs_enterCall definition) (runs_leaveCall definition)
          exact ReachesAt.tick silent_outOfFuel body input

theorem dispatcher_of_below :
    ReachesOutput State.world (runDispatcher codeOverride) fuel := by
  rw [runDispatcher_eq]
  apply ReachesAt.tick silent_outOfFuel
  intro less lt state
  have body := (below less lt).stmt codeOverride
    (.Block [state.executionEnv.code.dispatcher]) (state.initcall [] []).mkOk
  exact (body.after (runs_enterCall (.Def [] [] []) (state, []))).map
    (runs_leaveCall (.Def [] [] []) (state, []))

/-- All branches of a switch are run from the same world. -/
theorem branches_of_below (state : State) (branches : List (Literal × List Stmt)) :
    CasesReach state.world (execSwitchCases fuel codeOverride state branches) := by
  cases branches with
  | nil =>
      have none : execSwitchCases fuel codeOverride state [] = .ok [] := by
        cases fuel <;> rfl
      rw [none]
      exact fun _ absent => (List.not_mem_nil absent).elim
  | cons branch branches =>
      cases fuel with
      | zero => exact silent_outOfFuel
      | succ fuel =>
          have refines := below fuel (Nat.lt_succ_self fuel)
          rw [execSwitchCases_cons]
          apply Ends.map (refines.branches codeOverride state branches)
          intro outcomes each outcome member
          rcases List.mem_cons.mp member with rfl | member
          · exact refines.stmt codeOverride (.Block branch.2) state
          · exact each outcome member

/-- After its body, a loop ends, or runs its post block and starts again. -/
theorem afterBody_of_below {less : Nat} (lt : less < fuel) (cond : Expr)
    (post body : List Stmt) {world : World} {before after : State}
    (earlier : World.system.Runs world before.world)
    (run : World.system.Runs world after.world) :
    StateReaches world (afterBody codeOverride cond post body less before after) := by
  have refines := below less lt
  have proceed : StateReaches world
      (nextIteration codeOverride cond post body less before after.reviveJump) := by
    have posted := refines.stmt codeOverride (.Block post) after.reviveJump
    rw [world_reviveJump] at posted
    apply Ends.bind (posted.after run)
    intro next between
    exact ((refines.stmt codeOverride (.For cond post body) (next.overwrite? before)).after
      (runs_overwrite between earlier)).map fun _ last => runs_overwrite last earlier
  cases after with
  | Ok shared store => exact proceed
  | OutOfFuel => exact runs_overwrite run earlier
  | Checkpoint jump =>
      cases jump with
      | Continue shared store => exact proceed
      | Break shared store => exact runs_overwrite run earlier
      | Leave shared store => exact runs_overwrite run earlier

/-- A loop runs the system in its condition, its body and its next round. -/
theorem loop_of_below (cond : Expr) (post body : List Stmt) :
    ReachesState State.world
      (fun fuel state => Yul.loop fuel cond post body codeOverride state) fuel := by
  intro state
  match fuel, below with
  | 0, _ => exact Reaches.silent silent_outOfFuel
  | 1, _ => exact Reaches.silent silent_outOfFuel
  | fuel + 2, below =>
      have lt : fuel < fuel + 2 := Nat.lt_add_of_pos_right (Nat.succ_pos 1)
      have refines := below fuel lt
      simp only [loop_eq]
      apply Ends.bind ((refines.expr codeOverride cond state.mkOk).after (runs_mkOk state))
      intro output run
      split
      · exact runs_overwrite run (.refl _)
      · apply Ends.bind ((refines.stmt codeOverride (.Block body) output.1).after run)
        intro after run'
        exact afterBody_of_below codeOverride below lt cond post body (.refl _) run'

end Below

end Refines

/-- The interpreter refines the system at every amount of fuel. -/
theorem refines (fuel : Nat) : Refines fuel := by
  induction fuel using Nat.strong_induction_on with
  | _ fuel below =>
      exact
        { args := fun codeOverride => Refines.args_of_below codeOverride below
          expr := fun codeOverride => Refines.expr_of_below codeOverride below
          stmt := fun codeOverride => Refines.stmt_of_below codeOverride below
          prim := Refines.prim_of_below below
          call := fun codeOverride => Refines.call_of_below codeOverride below
          dispatcher := fun codeOverride => Refines.dispatcher_of_below codeOverride below
          branches := fun codeOverride => Refines.branches_of_below codeOverride below
          loop := fun codeOverride => Refines.loop_of_below codeOverride below }

/-- Where a statement ends or halts, it has run the system. -/
theorem exec_reaches (fuel : Nat) (stmt : Stmt) (state : State) :
    StateReaches state.world (exec fuel stmt codeOverride state) :=
  (refines fuel).stmt codeOverride stmt state

/-- A program as a whole runs the system, where a failure counts as a loss. -/
theorem execTopLevel_runs (fuel : Nat) (stmt : Stmt) (state : State) :
    World.system.Runs state.world (execTopLevel fuel stmt state).world := by
  have reaches := exec_reaches none fuel stmt state
  simp only [execTopLevel]
  generalize exec fuel stmt none state = outcome at reaches
  cases outcome with
  | ok final => exact reaches
  | error exception =>
      cases exception with
      | StaticModeViolation => exact .refl _
      | Revert => exact .refl _
      | YulHalt final value => exact reaches final.world rfl
      | _ => exact .step (.lose _)

end Interpreter

end YulGasRules.Yul
