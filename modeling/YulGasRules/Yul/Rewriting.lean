import Mathlib.Data.List.Zip
import YulGasRules.Collections.FiniteMaps
import YulGasRules.Yul.Ast

/-!
# Rewriting programs and contracts

A rewriting puts statements in the place of other ones, anywhere in a program: in blocks,
in branches and in loops, and in the dispatchers and functions of contracts.  What it may
replace by what is a relation, whose pairs are the sites of the rewriting.  A site may
span the rest of a block, since this rest is a block itself.
-/

namespace YulGasRules.Yul

open Collections

/-- A statement with some sites in it replaced. -/
inductive Rewrites (site : Stmt → Stmt → Prop) : Stmt → Stmt → Prop where
  | site {stmt stmt' : Stmt} (replaced : site stmt stmt') : Rewrites site stmt stmt'
  | nil : Rewrites site (.Block []) (.Block [])
  | cons {stmt stmt' : Stmt} {stmts stmts' : List Stmt} (head : Rewrites site stmt stmt')
      (rest : Rewrites site (.Block stmts) (.Block stmts')) :
      Rewrites site (.Block (stmt :: stmts)) (.Block (stmt' :: stmts'))
  | «let» (vars : List Identifier) (value : Option Expr) :
      Rewrites site (.Let vars value) (.Let vars value)
  | exprStmtCall (expr : Expr) : Rewrites site (.ExprStmtCall expr) (.ExprStmtCall expr)
  | switch (cond : Expr) {branches branches' : List (Literal × List Stmt)}
      {otherwise otherwise' : List Stmt}
      (labels : branches.map Prod.fst = branches'.map Prod.fst)
      (each : ∀ pair ∈ branches.zip branches',
        Rewrites site (.Block pair.1.2) (.Block pair.2.2))
      (default' : Rewrites site (.Block otherwise) (.Block otherwise')) :
      Rewrites site (.Switch cond branches otherwise) (.Switch cond branches' otherwise')
  | «for» (cond : Expr) {post post' body body' : List Stmt}
      (posts : Rewrites site (.Block post) (.Block post'))
      (bodies : Rewrites site (.Block body) (.Block body')) :
      Rewrites site (.For cond post body) (.For cond post' body')
  | «if» (cond : Expr) {body body' : List Stmt}
      (bodies : Rewrites site (.Block body) (.Block body')) :
      Rewrites site (.If cond body) (.If cond body')
  | «continue» : Rewrites site .Continue .Continue
  | «break» : Rewrites site .Break .Break
  | leave : Rewrites site .Leave .Leave

/-- Functions keep their parameters and their return variables. -/
inductive DefinitionRewrites (site : Stmt → Stmt → Prop) :
    FunctionDefinition → FunctionDefinition → Prop where
  | intro (params rets : List Identifier) {body body' : List Stmt}
      (bodies : Rewrites site (.Block body) (.Block body')) :
      DefinitionRewrites site (.Def params rets body) (.Def params rets body')

/-- Contracts keep the names of their functions. -/
structure ContractRewrites (site : Stmt → Stmt → Prop) (code code' : YulContract) : Prop where
  dispatcher : Rewrites site code.dispatcher code'.dispatcher
  functions : Corresponds (DefinitionRewrites site) code.functions code'.functions

variable {site : Stmt → Stmt → Prop}

/-! ## Nothing replaced -/

mutual
/-- A statement is a rewriting of itself, part by part. -/
theorem Rewrites.refl : (stmt : Stmt) → Rewrites site stmt stmt
  | .Block stmts => Rewrites.reflBlock stmts
  | .Let vars value => .let vars value
  | .ExprStmtCall expr => .exprStmtCall expr
  | .Switch cond branches otherwise =>
      .switch cond rfl (Rewrites.reflBranches branches) (Rewrites.reflBlock otherwise)
  | .For cond post body => .for cond (Rewrites.reflBlock post) (Rewrites.reflBlock body)
  | .If cond body => .if cond (Rewrites.reflBlock body)
  | .Continue => .continue
  | .Break => .break
  | .Leave => .leave

theorem Rewrites.reflBlock : (stmts : List Stmt) → Rewrites site (.Block stmts) (.Block stmts)
  | [] => .nil
  | stmt :: stmts => .cons (Rewrites.refl stmt) (Rewrites.reflBlock stmts)

theorem Rewrites.reflBranches : (branches : List (Literal × List Stmt)) →
    ∀ pair ∈ branches.zip branches, Rewrites site (.Block pair.1.2) (.Block pair.2.2)
  | [], _, absent => (List.not_mem_nil absent).elim
  | (val, stmts) :: branches, pair, member => by
      rcases List.mem_cons.mp member with rfl | member
      · exact Rewrites.reflBlock stmts
      · exact Rewrites.reflBranches branches pair member
end

theorem DefinitionRewrites.refl :
    (definition : FunctionDefinition) → DefinitionRewrites site definition definition
  | .Def params rets body => .intro params rets (.reflBlock body)

/-- And a contract one of itself. -/
theorem ContractRewrites.refl (code : YulContract) : ContractRewrites site code code where
  dispatcher := .refl _
  functions f := by
    cases code.functions.lookup f with
    | none => exact .none
    | some definition => exact .some (.refl definition)

/-- More sites allow for more rewritings. -/
theorem Rewrites.mono {wider : Stmt → Stmt → Prop}
    (included : ∀ stmt stmt', site stmt stmt' → wider stmt stmt') {stmt stmt' : Stmt}
    (rewrites : Rewrites site stmt stmt') : Rewrites wider stmt stmt' := by
  induction rewrites with
  | site replaced => exact .site (included _ _ replaced)
  | nil => exact .nil
  | cons _ _ head rest => exact .cons head rest
  | «let» vars value => exact .let vars value
  | exprStmtCall expr => exact .exprStmtCall expr
  | switch cond labels _ _ each otherwise => exact .switch cond labels each otherwise
  | «for» cond _ _ posts bodies => exact .for cond posts bodies
  | «if» cond _ bodies => exact .if cond bodies
  | «continue» => exact .continue
  | «break» => exact .break
  | leave => exact .leave

/-! ## The other way round -/

/-- Sites may be read the other way around. -/
theorem Rewrites.symm {stmt stmt' : Stmt} (rewrites : Rewrites site stmt stmt') :
    Rewrites (flip site) stmt' stmt := by
  induction rewrites with
  | site replaced => exact .site replaced
  | nil => exact .nil
  | cons _ _ head rest => exact .cons head rest
  | «let» vars value => exact .let vars value
  | exprStmtCall expr => exact .exprStmtCall expr
  | switch cond labels _ _ each otherwise =>
      refine .switch cond labels.symm ?_ otherwise
      intro pair member
      rw [← List.zip_swap, List.mem_map] at member
      rcases member with ⟨swapped, member, rfl⟩
      exact each swapped member
  | «for» cond _ _ posts bodies => exact .for cond posts bodies
  | «if» cond _ bodies => exact .if cond bodies
  | «continue» => exact .continue
  | «break» => exact .break
  | leave => exact .leave

theorem DefinitionRewrites.symm {definition definition' : FunctionDefinition}
    (rewrites : DefinitionRewrites site definition definition') :
    DefinitionRewrites (flip site) definition' definition := by
  cases rewrites with
  | intro params rets bodies => exact .intro params rets bodies.symm

theorem ContractRewrites.symm {code code' : YulContract}
    (rewrites : ContractRewrites site code code') :
    ContractRewrites (flip site) code' code where
  dispatcher := rewrites.dispatcher.symm
  functions := rewrites.functions.symm.mono fun _ _ => DefinitionRewrites.symm

end YulGasRules.Yul
