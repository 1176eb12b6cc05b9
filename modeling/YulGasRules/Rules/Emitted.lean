import YulGasRules.Rules.RequireCustomError
import YulGasRules.Yul.CallGraph

/-!
# Branch bodies that the compiler emits

The compiler emits a branch body as straight-line code followed by a `revert`.  Such
a body need not eventually revert from every state: a call of a user function fails
where the running contract has no account.  It does revert from every state in
which the running contract has an account that holds the code.
-/

namespace YulGasRules.Law1

open Yul YulGasRules.Core Fuel

/-! ## The form -/

/-- A branch body of contract `c`: straight-line code over the operations `P` allows
and the functions of `c`, followed by `revert(offset, size)`. -/
structure EmittedBody (P : PrimOp → Nat → Prop) (c : YulContract) where
  statements : List Stmt
  offset : Expr
  size : Expr
  straight : ∀ stmt ∈ statements, StraightStmt P c.Defines stmt
  operands : ∀ arg ∈ [offset, size], StraightExpr P c.Defines arg

namespace EmittedBody

section Form

variable {P : PrimOp → Nat → Prop} {c : YulContract}

def stmts (body : EmittedBody P c) : List Stmt :=
  body.statements ++ [revertStmt body.offset body.size]

/-- Whether the body, the arguments of its `revert` included, calls a user function. -/
def callsUser (body : EmittedBody P c) : Bool :=
  body.stmts.any Stmt.callsUser

/-- The bodies of a contract are the lists of statements of the form whose calls do not
recurse. -/
theorem exists_iff {statements : List Stmt} {offset size : Expr} :
    (∃ body : EmittedBody P c,
      body.statements = statements ∧ body.offset = offset ∧ body.size = size) ↔
      (∀ stmt ∈ statements,
        LocalStmt P c.Defines stmt ∧ ∀ f ∈ stmt.callees, NonRecursive P c.Defines f) ∧
      (∀ arg ∈ [offset, size],
        LocalExpr P c.Defines arg ∧ ∀ f ∈ arg.callees, NonRecursive P c.Defines f) := by
  simp only [← straightStmt_iff, ← straightExpr_iff]
  constructor
  · rintro ⟨body, rfl, rfl, rfl⟩
    exact ⟨body.straight, body.operands⟩
  · rintro ⟨straight, operands⟩
    exact ⟨⟨statements, offset, size, straight, operands⟩, rfl, rfl, rfl⟩

end Form

/-! ## Evaluation -/

section Evaluation

variable [FFI] {P : PrimOp → Nat → Prop} {c : YulContract}

/-- How a body ends in a setting whose only exceptions are those of calls. -/
theorem ends {I : Yul.State → Prop} {E : Exception → Prop} {returns : Prop}
    (setting : Setting none P c.Defines I E returns) (body : EmittedBody P c) :
    Eventually I (runStmt none (.Block body.stmts)) (fun _ => False)
      (EndsReverting E returns body.stmts) :=
  block_revert_ends setting body.straight body.operands

/-- A body without calls of user functions reverts from every state. -/
theorem reverts_everywhere (body : EmittedBody TotalPrim c) (free : body.callsUser = false) :
    EventuallyReverts body.stmts := by
  have each := List.any_eq_false.mp free
  have straight : ∀ stmt ∈ body.statements, StraightStmt TotalPrim (fun _ _ => False) stmt := by
    intro stmt member
    have silent := each stmt (List.mem_append_left _ member)
    exact (body.straight stmt member).callFree (Bool.eq_false_iff.mpr silent)
  have operands : ∀ arg ∈ [body.offset, body.size],
      StraightExpr TotalPrim (fun _ _ => False) arg := by
    intro arg member
    have silent := each (revertStmt body.offset body.size)
      (List.mem_append_right _ List.mem_cons_self)
    simp only [Stmt.callsUser, Expr.callsUser, anyCallsUser_eq_any] at silent
    have quiet := List.any_eq_false.mp (Bool.eq_false_iff.mpr silent) arg member
    exact (body.operands arg member).callFree (Bool.eq_false_iff.mpr quiet)
  rw [eventuallyReverts_iff_everywhere, eventuallyRevertsOn_iff]
  apply (block_revert_ends (Setting.callFree none) straight operands).mono_exceptional
  intro exception ends
  exact (ends.resolve_left id).1

/-- A body that calls a user function fails where the running contract has no account. -/
theorem fails_where_absent (body : EmittedBody TotalPrim c) (calls : body.callsUser = true) :
    Eventually Absent (runStmt none (.Block body.stmts)) (fun _ => False) IsMissingContract := by
  apply (body.ends (Setting.absent none c.Defines)).mono_exceptional
  intro exception ends
  exact ends.resolve_right fun reverts => reverts.2 calls

/-- No amount of fuel makes such a body revert there. -/
theorem never_reverts_where_absent (body : EmittedBody TotalPrim c)
    (calls : body.callsUser = true) (fuel : Nat) {s : Yul.State} (absent : Absent s) :
    exec fuel (.Block body.stmts) none s ≠ .error .Revert := by
  intro reverts
  have ends := (growing_stmt none (.Block body.stmts)).ends_of_eventually
    (body.fails_where_absent calls) fuel absent
  rw [runStmt, reverts] at ends
  rcases ends with exhausted | ⟨name, missing⟩
  · cases exhausted
  · cases missing

/-- A body that calls a user function does not eventually revert from every state. -/
theorem not_eventuallyReverts (body : EmittedBody TotalPrim c) (calls : body.callsUser = true) :
    ¬EventuallyReverts body.stmts := by
  rintro ⟨N, beyond⟩
  have absent : Absent default := runningCode_default
  exact body.never_reverts_where_absent calls N absent (beyond N (Nat.le_refl N) default)

/-- A body reverts from every state in which the running contract holds its code. -/
theorem reverts_where_running (body : EmittedBody ModelledPrim c) :
    EventuallyRevertsOn (Running c) body.stmts := by
  rw [eventuallyRevertsOn_iff]
  apply (body.ends (Setting.running none c)).mono_exceptional
  intro exception ends
  exact (ends.resolve_left id).1

/-- Modelled operations are total. -/
def total (body : EmittedBody ModelledPrim c) : EmittedBody TotalPrim c where
  statements := body.statements
  offset := body.offset
  size := body.size
  straight stmt member :=
    (body.straight stmt member).mono (fun _ _ modelled => modelled.1) fun _ _ => id
  operands arg member :=
    (body.operands arg member).mono (fun _ _ modelled => modelled.1) fun _ _ => id

/-- A body that passes the check, with functions that the contract defines. -/
def ofCheck {find : YulFunctionName → Option FunctionDefinition}
    (defined : ∀ f definition, find f = some definition → c.Defines f definition)
    (statements : List Stmt) (offset size : Expr) (depth : Nat)
    (straight : statements.all (checkStmt (checkExpr isModelled find depth)) = true)
    (operands : [offset, size].all (checkExpr isModelled find depth) = true) :
    EmittedBody ModelledPrim c where
  statements := statements
  offset := offset
  size := size
  straight stmt member := by
    refine straightStmt_of_check ?_ (List.all_eq_true.mp straight stmt member)
    intro expr checked
    exact (straightExpr_of_check isModelled find depth expr checked).mono
      (fun _ _ => modelledPrim_of_isModelled) defined
  operands arg member :=
    (straightExpr_of_check isModelled find depth arg
      (List.all_eq_true.mp operands arg member)).mono
        (fun _ _ => modelledPrim_of_isModelled) defined

end Evaluation

end EmittedBody

/-- The law for emitted bodies: they are interchangeable where the contract runs, under
a guard that is straight-line code as well. -/
theorem emitted_eventually_equiv_where_running [FFI] {c : YulContract} {B : Expr}
    (guard : StraightExpr ModelledPrim c.Defines B)
    (bodyR bodyS : EmittedBody ModelledPrim c) (Q : List Stmt) :
    EventuallyObsEquivOn (Running c)
      ([.If (.Call (.inl .ISZERO) [B]) bodyR.stmts] ++ Q)
      ([.If (.Call (.inl .ISZERO) [B]) bodyS.stmts] ++ Q) := by
  have isZero : ModelledPrim .ISZERO 1 := modelledPrim_of_isModelled (by decide)
  have straight : StraightExpr ModelledPrim c.Defines (.Call (.inl .ISZERO) [B]) := by
    refine .prim isZero ?_
    intro arg member
    rw [List.mem_singleton.mp member]
    exact guard
  have evaluated := ((Setting.running none c).evaluates straight).operand
  exact require_custom_error_eventually_equiv_on (Running c) (Running c) Q
    (evaluated.mono_normal fun _ after => after.1)
    bodyR.reverts_where_running bodyS.reverts_where_running

/-- An emitted body eventually reverts, from every state, exactly if it calls no user
function. -/
theorem eventuallyReverts_iff_no_call [FFI] {c : YulContract} (body : EmittedBody TotalPrim c) :
    EventuallyReverts body.stmts ↔ body.callsUser = false := by
  constructor
  · intro reverts
    by_contra calls
    exact body.not_eventuallyReverts (Bool.eq_true_of_not_eq_false calls) reverts
  · exact body.reverts_everywhere

/-- A hash function for code that does not hash. -/
abbrev unhashed : FFI where
  KEC _ := ByteArray.empty

/-- A body that stores a selector and reverts with it, calling no user function. -/
def selectorBody : @EmittedBody (@ModelledPrim unhashed) default :=
  @EmittedBody.ofCheck unhashed default (fun _ => none) (fun _ _ found => nomatch found)
    [.ExprStmtCall (.Call (.inl .MSTORE) [.Lit ⟨0⟩,
      .Lit ⟨0x92bbf6e800000000000000000000000000000000000000000000000000000000⟩])]
    (.Lit ⟨0⟩) (.Lit ⟨4⟩) 2 (by decide) (by decide)

theorem selectorBody_eventuallyReverts :
    @EventuallyReverts unhashed (@EmittedBody.total unhashed default selectorBody).stmts :=
  (@eventuallyReverts_iff_no_call unhashed default
    (@EmittedBody.total unhashed default selectorBody)).mpr rfl

end YulGasRules.Law1
