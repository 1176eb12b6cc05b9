import YulGasRules.Rules.EmittedCode
import YulGasRules.Yul.Congruence

/-!
# Laws inside programs and contracts

A law that says what two statements mean, whatever code they are run in, holds wherever
these statements stand: in a block, a branch or a loop, in a function, and in the
contracts that a program calls.  The programs are then equivalent, and where contracts
are rewritten as well, the final states differ in their codes alone.

The bodies that the compiler emits call helpers, so what they mean depends on the code
that they are run in.  They can still be replaced everywhere in a world whose contracts
do not disagree about the helpers.
-/

namespace YulGasRules.Core

open Yul Fuel
open Filter (atTop)

variable {site : Stmt → Stmt → Prop} {R : YulContract → YulContract → Prop}

/-- Related outcomes show related states. -/
theorem observe_recoded (unset : R default default) {s s' : Yul.State}
    (states : StateRecoded R s s') {outcome outcome' : Except Exception Yul.State}
    (outcomes : Related (StateRecoded R) (ExceptionRecoded R) outcome outcome') :
    StateRecoded R (observe s outcome) (observe s' outcome') := by
  have nothing : StateRecoded R default default := .ok default default (.unset unset)
  cases outcomes with
  | ok finals => exact finals
  | @error exception _ exceptions =>
      cases exceptions with
      | same silent =>
          cases exception with
          | YulHalt final value => exact (silent final.world rfl).elim
          | StaticModeViolation => exact states
          | Revert => exact states
          | _ => exact nothing
      | missing name name' => exact nothing
      | undefined name name' => exact nothing
      | halt finals value => exact finals

variable [FFI]

theorem execTopLevel_recoded (replaces : Replaces site R) {stmt stmt' : Stmt}
    (rewrites : Rewrites site stmt stmt') {s s' : Yul.State} (states : StateRecoded R s s') :
    ∃ N, ∀ n, N ≤ n → StateRecoded R (execTopLevel n stmt s) (execTopLevel n stmt' s') := by
  rw [← Filter.eventually_atTop]
  filter_upwards [eventually_observe stmt s, eventually_observe stmt' s'] with n shows shows'
  rw [shows, shows']
  exact observe_recoded replaces.unset states
    (replaces.stmtMeaning_recoded .none rewrites states)

/-- Equivalence in every context: statements that mean the same whatever code they are
run in can be replaced anywhere in a program. -/
theorem eventuallyObsEquiv_of_rewrites
    (same : ∀ stmt stmt', site stmt stmt' → ∀ codeOverride,
      stmtMeaning codeOverride stmt = stmtMeaning codeOverride stmt')
    {stmts stmts' : List Stmt} (rewrites : Rewrites site (.Block stmts) (.Block stmts')) :
    EventuallyObsEquiv stmts stmts' := by
  have replaces : Replaces site Eq :=
    { sites := fun replaced => .inl (same _ _ replaced)
      rewrites := fun codes => codes ▸ .refl _
      unset := rfl }
  intro s
  rcases execTopLevel_recoded replaces rewrites (.refl (fun _ => rfl) s) with ⟨N, beyond⟩
  exact ⟨N, fun n enough => (beyond n enough).eq⟩

/-- Equivalence in every world: such statements can be replaced in all contracts as well.
What a program leaves behind differs in the codes of contracts alone. -/
theorem eventually_recoded_of_rewrites
    (same : ∀ stmt stmt', site stmt stmt' → ∀ codeOverride,
      stmtMeaning codeOverride stmt = stmtMeaning codeOverride stmt')
    {stmts stmts' : List Stmt} (rewrites : Rewrites site (.Block stmts) (.Block stmts'))
    {s s' : Yul.State} (states : StateRecoded (ContractRewrites site) s s') :
    ∃ N, ∀ n, N ≤ n → StateRecoded (ContractRewrites site)
      (execTopLevel n (.Block stmts) s) (execTopLevel n (.Block stmts') s') := by
  have replaces : Replaces site (ContractRewrites site) :=
    { sites := fun replaced => .inl (same _ _ replaced)
      rewrites := id
      unset := .refl default }
  exact execTopLevel_recoded replaces rewrites states

end YulGasRules.Core

namespace YulGasRules.Law1

open Yul YulGasRules.Core Collections Fuel

/-! ## The arguments of `revert` -/

/-- Two calls of `revert` with literals. -/
inductive RevertSite : Stmt → Stmt → Prop where
  | intro (a b a' b' : Literal) :
      RevertSite (revertStmt (.Lit a) (.Lit b)) (revertStmt (.Lit a') (.Lit b'))

/-- The literals do not matter, in any code. -/
theorem RevertSite.same [FFI] (stmt stmt' : Stmt) (site : RevertSite stmt stmt')
    (codeOverride : Option YulContract) :
    stmtMeaning codeOverride stmt = stmtMeaning codeOverride stmt' := by
  cases site with
  | intro a b a' b' =>
      rw [stmtMeaning, runStmt_revert_lits, stmtMeaning, runStmt_revert_lits]

/-- `for { } 1 { } { if 1 { revert(0, size) } }` -/
def revertingLoop (size : Literal) : Stmt :=
  .For (.Lit ⟨1⟩) [] [.If (.Lit ⟨1⟩) [revertStmt (.Lit ⟨0⟩) (.Lit size)]]

theorem revertingLoop_rewrites (size size' : Literal) :
    Rewrites RevertSite (revertingLoop size) (revertingLoop size') :=
  .for _ .nil (.cons (.if _ (.cons (.site (.intro ..)) .nil)) .nil)

theorem eventuallyObsEquiv_revertingLoop :
    @EventuallyObsEquiv unhashed [revertingLoop ⟨0⟩] [revertingLoop ⟨32⟩] :=
  @eventuallyObsEquiv_of_rewrites _ unhashed (@RevertSite.same unhashed) _ _
    (.cons (revertingLoop_rewrites ⟨0⟩ ⟨32⟩) .nil)

/-! The same in a contract that the program runs. -/

/-- `function transfer(to) { if iszero(to) { body } }` -/
def guarded (body : List Stmt) : YulContract :=
  ⟨.Block [], helpers.insert "transfer" (.Def ["to"] [] [.If (op .ISZERO [.Var "to"]) body])⟩

/-- A world with one account, whose code runs. -/
def deployed (code : YulContract) : World :=
  World.recode default (Finmap.insert default { (default : Account .Yul) with code } ∅) code

theorem guarded_rewrites {site : Stmt → Stmt → Prop} {body body' : List Stmt}
    (bodies : Rewrites site (.Block body) (.Block body')) :
    ContractRewrites site (guarded body) (guarded body') where
  dispatcher := .nil
  functions := (ContractRewrites.refl helperContract).functions.insert _
    (.intro _ _ (.cons (.if _ bodies) .nil))

theorem deployed_recoded {R : YulContract → YulContract → Prop} {code code' : YulContract}
    (codes : R code code') :
    StateRecoded R (.Ok ⟨deployed code, default⟩ default)
      (.Ok ⟨deployed code', default⟩ default) :=
  .ok default default
    (.intro default ((Corresponds.empty _).insert _ (.intro default codes)) codes)

theorem eventually_recoded_revertingLoop :
    ∃ N, ∀ n, N ≤ n →
      StateRecoded (ContractRewrites RevertSite)
        (@execTopLevel unhashed n
          (.Block [.ExprStmtCall (callUser "transfer" [.Lit ⟨0⟩])])
          (.Ok ⟨deployed (guarded [revertingLoop ⟨0⟩]), default⟩ default))
        (@execTopLevel unhashed n
          (.Block [.ExprStmtCall (callUser "transfer" [.Lit ⟨0⟩])])
          (.Ok ⟨deployed (guarded [revertingLoop ⟨32⟩]), default⟩ default)) :=
  @eventually_recoded_of_rewrites _ unhashed (@RevertSite.same unhashed) _ _ (.reflBlock _) _ _
    (deployed_recoded (guarded_rewrites (.cons (revertingLoop_rewrites ⟨0⟩ ⟨32⟩) .nil)))

/-! ## Emitted bodies in any code -/

/-- The code defines the functions of `c` as `c` does. -/
def Includes (c code : YulContract) : Prop :=
  ∀ f definition, c.Defines f definition → code.Defines f definition

/-- The code defines none of the functions of `c`. -/
def Lacks (c code : YulContract) : Prop :=
  ∀ f definition, c.Defines f definition → code.functions.lookup f = none

theorem lacks_default (c : YulContract) : Lacks c default :=
  fun f _ _ => Finmap.lookup_empty f

theorem not_defines_default (f : YulFunctionName) (definition : FunctionDefinition) :
    ¬YulContract.Defines default f definition := by
  intro defined
  rw [YulContract.Defines, lacks_default default f definition defined] at defined
  cases defined

namespace EmittedBody

variable [FFI] {c : YulContract} {codeOverride : Option YulContract} {s : Yul.State}

theorem meaning_in_setting {P : PrimOp → Nat → Prop}
    {D : YulFunctionName → FunctionDefinition → Prop} {I : Yul.State → Prop}
    {E : Exception → Prop} {returns : Prop} (setting : Setting codeOverride P D I E returns)
    (body : EmittedBody ModelledPrim c)
    (allowed : ∀ prim count, ModelledPrim prim count → P prim count)
    (defined : ∀ f definition, c.Defines f definition → D f definition) (holds : I s) :
    ∃ exception, stmtMeaning codeOverride (.Block body.stmts) s = .error exception ∧
      EndsReverting E returns body.stmts exception := by
  apply Ends.exists_error
  apply (growing_stmt codeOverride (.Block body.stmts)).ends_meaning ?_ holds
  apply block_revert_ends setting
  · exact fun stmt member => (body.straight stmt member).mono allowed defined
  · exact fun arg member => (body.operands arg member).mono allowed defined

/-- A body reverts in code that includes its functions. -/
theorem meaning_where_included (body : EmittedBody ModelledPrim c) {code : YulContract}
    (running : Running code s) (includes : Includes c (codeOverride.getD code)) :
    stmtMeaning codeOverride (.Block body.stmts) s = .error .Revert := by
  rcases meaning_in_setting (Setting.running codeOverride code) body (fun _ _ => id) includes
    running with ⟨exception, means, ends⟩
  rw [means, (ends.resolve_left id).1]

/-- A body that calls user functions fails in code that lacks them. -/
theorem meaning_where_lacking (body : EmittedBody ModelledPrim c) (calls : body.callsUser = true)
    {code : YulContract} (running : Running code s) (lacks : Lacks c (codeOverride.getD code)) :
    ∃ name, stmtMeaning codeOverride (.Block body.stmts) s =
      .error (.MissingContractFunction name) := by
  rcases meaning_in_setting (Setting.lacking codeOverride code lacks) body (fun _ _ => id)
    (fun _ _ => id) running with ⟨exception, means, ends⟩
  rcases ends.resolve_right fun reverts => reverts.2 calls with ⟨name, rfl⟩
  exact ⟨name, means⟩

/-- It fails as well where the running contract has no account. -/
theorem meaning_where_absent (body : EmittedBody ModelledPrim c) (calls : body.callsUser = true)
    (absent : Absent s) :
    ∃ name, stmtMeaning codeOverride (.Block body.stmts) s = .error (.MissingContract name) := by
  rcases meaning_in_setting (Setting.absent codeOverride c.Defines) body
    (fun _ _ modelled => modelled.1) (fun _ _ => id) absent with ⟨exception, means, ends⟩
  rcases ends.resolve_right fun reverts => reverts.2 calls with ⟨name, rfl⟩
  exact ⟨name, means⟩

/-- A body of a contract without functions reverts in any code. -/
theorem meaning_without_functions (body : EmittedBody ModelledPrim default) :
    stmtMeaning codeOverride (.Block body.stmts) s = .error .Revert := by
  rcases meaning_in_setting (Setting.callFree codeOverride) body
    (fun _ _ modelled => modelled.1) not_defines_default
    trivial with ⟨exception, means, ends⟩
  rw [means, (ends.resolve_left id).1]

end EmittedBody

/-! ## Recompiled contracts -/

section Recompiled

variable [FFI]

/-- Bodies that are put in each other's place: both call functions of `c`, or neither
calls any. -/
inductive BodySite (c : YulContract) : Stmt → Stmt → Prop where
  | calling (bodyR bodyS : EmittedBody ModelledPrim c) (callsR : bodyR.callsUser = true)
      (callsS : bodyS.callsUser = true) : BodySite c (.Block bodyR.stmts) (.Block bodyS.stmts)
  | free (bodyR bodyS : EmittedBody ModelledPrim default) :
      BodySite c (.Block bodyR.stmts) (.Block bodyS.stmts)

/-- A contract with some bodies replaced.  Before and after, it includes the functions
that the bodies call, or lacks them. -/
structure Recompiled (c code code' : YulContract) : Prop where
  rewrites : ContractRewrites (BodySite c) code code'
  agrees : (Includes c code ∧ Includes c code') ∨ (Lacks c code ∧ Lacks c code')

variable {c : YulContract}

theorem recompiled_default : Recompiled c default default where
  rewrites := .refl default
  agrees := .inr ⟨lacks_default c, lacks_default c⟩

theorem BodySite.interchangeable {stmt stmt' : Stmt} (site : BodySite c stmt stmt') :
    Interchangeable (Recompiled c) stmt stmt' := by
  cases site with
  | free bodyR bodyS =>
      left
      intro codeOverride
      funext s
      rw [bodyR.meaning_without_functions, bodyS.meaning_without_functions]
  | calling bodyR bodyS callsR callsS =>
      right
      intro codeOverride codeOverride' overrides s s' states
      have codes := states.runningCode recompiled_default
      generalize running : s.runningCode = code, running' : s'.runningCode = code' at codes
      cases codes with
      | none =>
          rcases bodyR.meaning_where_absent callsR running with ⟨name, means⟩
          rcases bodyS.meaning_where_absent callsS running' with ⟨name', means'⟩
          rw [means, means']
          exact .error (.missing name name')
      | some related =>
          rcases (overrides_getD overrides related).agrees with
            ⟨included, included'⟩ | ⟨lacks, lacks'⟩
          · rw [bodyR.meaning_where_included running included,
              bodyS.meaning_where_included running' included']
            exact .error (.same fun _ => id)
          · rcases bodyR.meaning_where_lacking callsR running lacks with ⟨name, means⟩
            rcases bodyS.meaning_where_lacking callsS running' lacks' with ⟨name', means'⟩
            rw [means, means']
            exact .error (.undefined name name')

/-- The law in every world: where contracts do not disagree about the functions that the
bodies call, bodies can be replaced in the program and in all contracts. -/
theorem eventually_recoded_of_recompiled {stmts stmts' : List Stmt}
    (rewrites : Rewrites (BodySite c) (.Block stmts) (.Block stmts')) {s s' : Yul.State}
    (states : StateRecoded (Recompiled c) s s') :
    ∃ N, ∀ n, N ≤ n → StateRecoded (Recompiled c)
      (execTopLevel n (.Block stmts) s) (execTopLevel n (.Block stmts') s') := by
  have replaces : Replaces (BodySite c) (Recompiled c) :=
    { sites := BodySite.interchangeable
      rewrites := Recompiled.rewrites
      unset := recompiled_default }
  exact execTopLevel_recoded replaces rewrites states

end Recompiled

/-! The contract from above, deployed with either body of the law. -/

theorem guarded_includes (body : List Stmt) : Includes helperContract (guarded body) := by
  intro f definition defined
  by_cases same : f = "transfer"
  · have absent : (helpers.lookup "transfer").isNone = true := by decide +kernel
    have found : helpers.lookup f = some definition := defined
    rw [same, Option.isNone_iff_eq_none.mp absent] at found
    cases found
  · exact (Finmap.lookup_insert_of_ne helpers same).trans defined

theorem guarded_recompiled [FFI] : Recompiled helperContract
    (guarded (requireBody helperContract_includesHelpers).stmts)
    (guarded (errorBody helperContract_includesHelpers).stmts) where
  rewrites := guarded_rewrites (.site (.calling _ _ rfl rfl))
  agrees := .inl ⟨guarded_includes _, guarded_includes _⟩

theorem eventually_recoded_guarded :
    ∃ N, ∀ n, N ≤ n →
      StateRecoded (@Recompiled unhashed helperContract)
        (@execTopLevel unhashed n
          (.Block [.ExprStmtCall (callUser "transfer" [.Lit ⟨0⟩])])
          (.Ok ⟨deployed (guarded
            (@requireBody unhashed _ helperContract_includesHelpers).stmts), default⟩ default))
        (@execTopLevel unhashed n
          (.Block [.ExprStmtCall (callUser "transfer" [.Lit ⟨0⟩])])
          (.Ok ⟨deployed (guarded
            (@errorBody unhashed _ helperContract_includesHelpers).stmts), default⟩ default)) :=
  @eventually_recoded_of_recompiled unhashed helperContract _ _ (.reflBlock _) _ _
    (deployed_recoded (@guarded_recompiled unhashed))

end YulGasRules.Law1
