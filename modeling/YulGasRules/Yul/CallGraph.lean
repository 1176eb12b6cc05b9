import Mathlib.Data.Set.Finite.Basic
import Mathlib.Logic.Relation
import Mathlib.Order.WellFounded
import YulGasRules.Yul.Settings

/-!
# The call graph of straight-line code

A derivation of the straight-line form looks into the called functions.  Here it is
taken apart into two conditions: each body by itself consists of declarations and
calls, and no function that the code reaches calls itself, directly or through
others.  Together they are equivalent to the derivation for a contract, which has
finitely many functions.
-/

namespace YulGasRules.Yul

open Relation (ReflTransGen TransGen)

/-! ## Relations without cycles -/

section Cycles

variable {α : Type*} {r : α → α → Prop}

theorem not_transGen_self_of_acc {a : α} (acc : Acc r a) : ¬TransGen r a a := by
  have reaches := acc.transGen
  induction reaches with
  | intro a _ ih =>
      intro cycle
      exact ih a cycle (acc.inv_of_transGen cycle) cycle

/-- If finitely many elements have predecessors, an element is accessible unless a
cycle leads to it. -/
theorem acc_of_no_cycle {s : Set α} (finite : s.Finite)
    (targets : ∀ {b c}, r b c → c ∈ s) {a : α}
    (noCycle : ∀ b, ReflTransGen r b a → ¬TransGen r b b) : Acc r a := by
  by_contra inaccessible
  obtain ⟨chain, start, descends⟩ := not_acc_iff_exists_descending_chain.mp inaccessible
  have below : ∀ m n, m < n → TransGen r (chain n) (chain m) := by
    intro m n less
    induction less with
    | refl => exact .single (descends m)
    | step _ ih => exact .head (descends _) ih
  have reaches : ∀ n, ReflTransGen r (chain n) a := by
    intro n
    cases n with
    | zero => exact start ▸ .refl
    | succ n => exact start ▸ (below 0 (n + 1) n.succ_pos).to_reflTransGen
  have members : ∀ n, chain n ∈ s := fun n => targets (descends n)
  have repeats : ¬Function.Injective chain := by
    intro injective
    exact Set.infinite_of_injective_forall_mem injective members finite
  obtain ⟨m, n, same, distinct⟩ := Function.not_injective_iff.mp repeats
  rcases Nat.lt_or_gt_of_ne distinct with less | less
  · exact noCycle (chain m) (reaches m) (same ▸ below m n less)
  · exact noCycle (chain n) (reaches n) (same ▸ below n m less)

end Cycles

/-! ## Called functions -/

mutual
/-- The user functions that an expression calls itself. -/
def Expr.callees : Expr → List YulFunctionName
  | .Var _ => []
  | .Lit _ => []
  | .Call (.inl _) args => calleesOf args
  | .Call (.inr f) args => f :: calleesOf args

def calleesOf : List Expr → List YulFunctionName
  | [] => []
  | arg :: args => arg.callees ++ calleesOf args
end

/-- The user functions that a straight-line statement calls itself. -/
def Stmt.callees : Stmt → List YulFunctionName
  | .Let _ (some expr) => expr.callees
  | .ExprStmtCall expr => expr.callees
  | _ => []

theorem mem_calleesOf {g : YulFunctionName} {args : List Expr} :
    g ∈ calleesOf args ↔ ∃ arg ∈ args, g ∈ arg.callees := by
  induction args with
  | nil => simp [calleesOf]
  | cons arg args ih => simp [calleesOf, ih]

section Graph

variable (P : PrimOp → Nat → Prop) (D : YulFunctionName → FunctionDefinition → Prop)

/-- The body of `f` calls `g`. -/
def CalledBy (g f : YulFunctionName) : Prop :=
  ∃ definition, D f definition ∧ ∃ stmt ∈ definition.body, g ∈ stmt.callees

/-! ## The form of one body -/

/-- The form of an expression, without the bodies of the functions it calls. -/
inductive LocalExpr : Expr → Prop where
  | var (id : Identifier) : LocalExpr (.Var id)
  | lit (val : Literal) : LocalExpr (.Lit val)
  | prim {prim : PrimOp} {args : List Expr} (allowed : P prim args.length)
      (operands : ∀ arg ∈ args, LocalExpr arg) : LocalExpr (.Call (.inl prim) args)
  | call {f : YulFunctionName} {definition : FunctionDefinition} {args : List Expr}
      (defined : D f definition) (operands : ∀ arg ∈ args, LocalExpr arg) :
      LocalExpr (.Call (.inr f) args)

/-- Declarations and call statements over such expressions. -/
inductive LocalStmt : Stmt → Prop where
  | declare (vars : List Identifier) : LocalStmt (.Let vars none)
  | bind (vars : List Identifier) {expr : Expr} (value : LocalExpr P D expr) :
      LocalStmt (.Let vars (some expr))
  | perform {f : PrimOp ⊕ YulFunctionName} {args : List Expr}
      (effect : LocalExpr P D (.Call f args)) : LocalStmt (.ExprStmtCall (.Call f args))

/-- The functions that `f` reaches through calls have bodies of the form, and none of
them calls itself, directly or through others. -/
structure NonRecursive (f : YulFunctionName) : Prop where
  form : ∀ {g}, ReflTransGen (CalledBy D) g f → ∀ {definition}, D g definition →
    ∀ stmt ∈ definition.body, LocalStmt P D stmt
  acyclic : ∀ {g}, ReflTransGen (CalledBy D) g f → ¬TransGen (CalledBy D) g g

variable {P D}

/-! ## From the call graph to derivations -/

/-- What makes the body of a called function straight-line. -/
def StraightBody (P : PrimOp → Nat → Prop) (D : YulFunctionName → FunctionDefinition → Prop)
    (f : YulFunctionName) : Prop :=
  ∀ definition, D f definition → ∀ stmt ∈ definition.body, StraightStmt P D stmt

theorem LocalExpr.straight {expr : Expr} (form : LocalExpr P D expr)
    (bodies : ∀ f ∈ expr.callees, StraightBody P D f) : StraightExpr P D expr := by
  induction form with
  | var id => exact .var id
  | lit val => exact .lit val
  | prim allowed _ ih =>
      refine .prim allowed ?_
      intro arg member
      apply ih arg member
      intro f called
      exact bodies f (mem_calleesOf.mpr ⟨arg, member, called⟩)
  | call defined _ ih =>
      refine .call defined ?_ (bodies _ List.mem_cons_self _ defined)
      intro arg member
      apply ih arg member
      intro f called
      exact bodies f (List.mem_cons_of_mem _ (mem_calleesOf.mpr ⟨arg, member, called⟩))

theorem LocalStmt.straight {stmt : Stmt} (form : LocalStmt P D stmt)
    (bodies : ∀ f ∈ stmt.callees, StraightBody P D f) : StraightStmt P D stmt := by
  cases form with
  | declare vars => exact .declare vars
  | bind vars value => exact .bind vars (value.straight bodies)
  | perform effect => exact .perform (effect.straight bodies)

/-- Along the calls that lead away from it, an accessible function is straight-line. -/
theorem straightBody_of_acc {f : YulFunctionName} (acc : Acc (CalledBy D) f)
    (form : ∀ g, ReflTransGen (CalledBy D) g f → ∀ definition, D g definition →
      ∀ stmt ∈ definition.body, LocalStmt P D stmt) : StraightBody P D f := by
  induction acc with
  | intro f _ ih =>
      intro definition defined stmt member
      apply (form f .refl definition defined stmt member).straight
      intro g called
      have step : CalledBy D g f := ⟨definition, defined, stmt, member, called⟩
      apply ih g step
      intro h reaches
      exact form h (reaches.tail step)

theorem NonRecursive.straightBody {f : YulFunctionName} (nonRecursive : NonRecursive P D f)
    (finite : {f | ∃ definition, D f definition}.Finite) : StraightBody P D f := by
  have acc : Acc (CalledBy D) f := by
    apply acc_of_no_cycle finite
    · rintro g h ⟨definition, defined, _⟩
      exact ⟨definition, defined⟩
    · intro g reaches
      exact nonRecursive.acyclic reaches
  apply straightBody_of_acc acc
  intro g reaches definition defined
  exact nonRecursive.form reaches defined

/-! ## From derivations to the call graph -/

/-- What a derivation says about a called function. -/
structure Settled (P : PrimOp → Nat → Prop)
    (D : YulFunctionName → FunctionDefinition → Prop) (f : YulFunctionName) : Prop where
  acc : Acc (CalledBy D) f
  form : ∀ g, ReflTransGen (CalledBy D) g f → ∀ definition, D g definition →
    ∀ stmt ∈ definition.body, LocalStmt P D stmt

theorem settled_of_body (functional : Relator.RightUnique D)
    {f : YulFunctionName} {definition : FunctionDefinition} (defined : D f definition)
    (body : ∀ stmt ∈ definition.body,
      LocalStmt P D stmt ∧ ∀ g ∈ stmt.callees, Settled P D g) : Settled P D f := by
  have callee : ∀ {g}, CalledBy D g f → Settled P D g := by
    rintro g ⟨definition', defined', stmt, member, called⟩
    cases functional defined defined'
    exact (body stmt member).2 g called
  constructor
  · exact .intro f fun g step => (callee step).acc
  · intro g reaches definition' defined' stmt member
    cases reaches with
    | refl =>
        cases functional defined defined'
        exact (body stmt member).1
    | tail reaches step => exact (callee step).form g reaches definition' defined' stmt member

mutual
theorem StraightExpr.settled (functional : Relator.RightUnique D) {expr : Expr} :
    StraightExpr P D expr → LocalExpr P D expr ∧ ∀ f ∈ expr.callees, Settled P D f
  | .var id => ⟨.var id, nofun⟩
  | .lit val => ⟨.lit val, nofun⟩
  | .prim allowed operands => by
      have each := fun arg member => (operands arg member).settled functional
      use .prim allowed fun arg member => (each arg member).1
      intro f called
      obtain ⟨arg, member, inner⟩ := mem_calleesOf.mp called
      exact (each arg member).2 f inner
  | .call defined operands body => by
      have each := fun arg member => (operands arg member).settled functional
      use .call defined fun arg member => (each arg member).1
      intro f called
      rcases List.mem_cons.mp called with rfl | inner
      · exact settled_of_body functional defined fun stmt member =>
          (body stmt member).settled functional
      · obtain ⟨arg, member, inner⟩ := mem_calleesOf.mp inner
        exact (each arg member).2 f inner

theorem StraightStmt.settled (functional : Relator.RightUnique D) {stmt : Stmt} :
    StraightStmt P D stmt → LocalStmt P D stmt ∧ ∀ f ∈ stmt.callees, Settled P D f
  | .declare vars => ⟨.declare vars, nofun⟩
  | .bind vars value =>
      ⟨.bind vars (value.settled functional).1, (value.settled functional).2⟩
  | .perform effect => ⟨.perform (effect.settled functional).1, (effect.settled functional).2⟩
end

theorem Settled.nonRecursive {f : YulFunctionName} (settled : Settled P D f) :
    NonRecursive P D f := by
  constructor
  · intro g reaches definition defined
    exact settled.form g reaches definition defined
  · intro g reaches
    apply not_transGen_self_of_acc
    rcases Relation.reflTransGen_iff_eq_or_transGen.mp reaches with rfl | above
    · exact settled.acc
    · exact settled.acc.inv_of_transGen above

end Graph

/-! ## The functions of a contract -/

theorem YulContract.rightUnique_defines (c : YulContract) : Relator.RightUnique c.Defines :=
  fun _ _ _ defined defined' => Option.some.inj (defined.symm.trans defined')

theorem YulContract.finite_defines (c : YulContract) :
    {f | ∃ definition, c.Defines f definition}.Finite := by
  apply c.functions.keys.finite_toSet.subset
  rintro f ⟨definition, defined⟩
  exact Finmap.mem_keys.mpr (Finmap.mem_of_lookup_eq_some defined)

/-- An expression of a contract is straight-line exactly if it has the form, as have the
bodies of all functions that it reaches, and none of these calls itself. -/
theorem straightExpr_iff {P : PrimOp → Nat → Prop} {c : YulContract} {expr : Expr} :
    StraightExpr P c.Defines expr ↔
      LocalExpr P c.Defines expr ∧ ∀ f ∈ expr.callees, NonRecursive P c.Defines f := by
  constructor
  · intro straight
    have settled := straight.settled c.rightUnique_defines
    exact ⟨settled.1, fun f called => (settled.2 f called).nonRecursive⟩
  · rintro ⟨form, nonRecursive⟩
    exact form.straight fun f called => (nonRecursive f called).straightBody c.finite_defines

/-- The same for statements. -/
theorem straightStmt_iff {P : PrimOp → Nat → Prop} {c : YulContract} {stmt : Stmt} :
    StraightStmt P c.Defines stmt ↔
      LocalStmt P c.Defines stmt ∧ ∀ f ∈ stmt.callees, NonRecursive P c.Defines f := by
  constructor
  · intro straight
    have settled := straight.settled c.rightUnique_defines
    exact ⟨settled.1, fun f called => (settled.2 f called).nonRecursive⟩
  · rintro ⟨form, nonRecursive⟩
    exact form.straight fun f called => (nonRecursive f called).straightBody c.finite_defines

end YulGasRules.Yul
