import YulGasRules.Yul.Computation

/-!
# Straight-line code

Straight-line code consists of declarations and calls, over primitive operations
and user functions whose bodies are straight-line in turn.  A derivation of this
form is finite, so the calls it covers do not recurse.

What straight-line code eventually does depends on where it runs.  A setting
collects what has to be known: an invariant of the states, that the primitive
operations keep it, and what becomes of a call.  One theorem for expressions and
one for statements then hold in every setting.
-/

namespace YulGasRules.Yul

open Fuel

/-! ## The form -/

section Form

variable (P : PrimOp → Nat → Prop) (D : YulFunctionName → FunctionDefinition → Prop)

mutual
/-- Expressions over the operations `P` allows at their argument counts and the
functions `D` defines. -/
inductive StraightExpr : Expr → Prop where
  | var (id : Identifier) : StraightExpr (.Var id)
  | lit (val : Literal) : StraightExpr (.Lit val)
  | prim {prim : PrimOp} {args : List Expr} (allowed : P prim args.length)
      (operands : ∀ arg ∈ args, StraightExpr arg) : StraightExpr (.Call (.inl prim) args)
  | call {f : YulFunctionName} {definition : FunctionDefinition} {args : List Expr}
      (defined : D f definition) (operands : ∀ arg ∈ args, StraightExpr arg)
      (body : ∀ stmt ∈ definition.body, StraightStmt stmt) :
      StraightExpr (.Call (.inr f) args)

/-- Declarations and call statements over such expressions. -/
inductive StraightStmt : Stmt → Prop where
  | declare (vars : List Identifier) : StraightStmt (.Let vars none)
  | bind (vars : List Identifier) {expr : Expr} (value : StraightExpr expr) :
      StraightStmt (.Let vars (some expr))
  | perform {f : PrimOp ⊕ YulFunctionName} {args : List Expr}
      (effect : StraightExpr (.Call f args)) : StraightStmt (.ExprStmtCall (.Call f args))
end

variable {P D} {P' : PrimOp → Nat → Prop}
variable {D' : YulFunctionName → FunctionDefinition → Prop}
mutual
/-- More operations and functions may be allowed. -/
theorem StraightExpr.mono {expr : Expr} (allowed : ∀ prim count, P prim count → P' prim count)
    (defined : ∀ f definition, D f definition → D' f definition) :
    StraightExpr P D expr → StraightExpr P' D' expr
  | .var id => .var id
  | .lit val => .lit val
  | .prim permitted operands =>
      .prim (allowed _ _ permitted) fun arg member => (operands arg member).mono allowed defined
  | .call found operands body =>
      .call (defined _ _ found) (fun arg member => (operands arg member).mono allowed defined)
        fun stmt member => (body stmt member).mono allowed defined

theorem StraightStmt.mono {stmt : Stmt} (allowed : ∀ prim count, P prim count → P' prim count)
    (defined : ∀ f definition, D f definition → D' f definition) :
    StraightStmt P D stmt → StraightStmt P' D' stmt
  | .declare vars => .declare vars
  | .bind vars value => .bind vars (value.mono allowed defined)
  | .perform effect => .perform (effect.mono allowed defined)
end

end Form

/-! ## An executable check

Looking into calls up to some depth decides whether code is straight-line. -/

section Check

variable (allowed : PrimOp → Nat → Bool) (find : YulFunctionName → Option FunctionDefinition)

/-- Whether a statement is straight-line, given a check of expressions. -/
def checkStmt (checkExpr : Expr → Bool) : Stmt → Bool
  | .Let _ none => true
  | .Let _ (some expr) => checkExpr expr
  | .ExprStmtCall (.Call f args) => checkExpr (.Call f args)
  | _ => false

/-- Whether an expression is, with nesting and calls down to a depth. -/
def checkExpr : Nat → Expr → Bool
  | 0, _ => false
  | _ + 1, .Var _ => true
  | _ + 1, .Lit _ => true
  | depth + 1, .Call (.inl prim) args => allowed prim args.length && args.all (checkExpr depth)
  | depth + 1, .Call (.inr f) args =>
      match find f with
      | none => false
      | some definition =>
          args.all (checkExpr depth) && definition.body.all (checkStmt (checkExpr depth))

/-- The check is sound. -/
theorem straightStmt_of_check {P : PrimOp → Nat → Prop}
    {D : YulFunctionName → FunctionDefinition → Prop} {check : Expr → Bool}
    (sound : ∀ expr, check expr = true → StraightExpr P D expr) {stmt : Stmt}
    (checked : checkStmt check stmt = true) : StraightStmt P D stmt := by
  simp only [checkStmt] at checked
  split at checked
  · exact .declare _
  · exact .bind _ (sound _ checked)
  · exact .perform (sound _ checked)
  · cases checked

theorem straightExpr_of_check (depth : Nat) (expr : Expr)
    (checked : checkExpr allowed find depth expr = true) :
    StraightExpr (fun prim count => allowed prim count = true)
      (fun f definition => find f = some definition) expr := by
  induction depth generalizing expr with
  | zero => cases checked
  | succ depth ih =>
      cases expr with
      | Var id => exact .var id
      | Lit val => exact .lit val
      | Call f args =>
          cases f with
          | inl prim =>
              rw [checkExpr, Bool.and_eq_true, List.all_eq_true] at checked
              exact .prim checked.1 fun arg member => ih arg (checked.2 arg member)
          | inr f =>
              rw [checkExpr] at checked
              cases found : find f with
              | none =>
                  rw [found] at checked
                  cases checked
              | some definition =>
                  rw [found] at checked
                  simp only [Bool.and_eq_true, List.all_eq_true] at checked
                  refine .call found (fun arg member => ih arg (checked.1 arg member)) ?_
                  intro stmt member
                  exact straightStmt_of_check ih (checked.2 stmt member)

end Check

/-! ## Calls of user functions -/

mutual
/-- Whether evaluating an expression calls a user function. -/
def Expr.callsUser : Expr → Bool
  | .Var _ => false
  | .Lit _ => false
  | .Call (.inl _) args => anyCallsUser args
  | .Call (.inr _) _ => true

/-- Whether a user function is called in one of the arguments. -/
def anyCallsUser : List Expr → Bool
  | [] => false
  | arg :: args => arg.callsUser || anyCallsUser args
end

/-- Whether a straight-line statement calls a user function. -/
def Stmt.callsUser : Stmt → Bool
  | .Let _ (some expr) => expr.callsUser
  | .ExprStmtCall expr => expr.callsUser
  | _ => false

theorem anyCallsUser_eq_any (args : List Expr) :
    anyCallsUser args = args.any Expr.callsUser := by
  induction args with
  | nil => rfl
  | cons arg args ih => simp only [anyCallsUser, List.any_cons, ih]

theorem anyCallsUser_reverse (args : List Expr) :
    anyCallsUser args.reverse = anyCallsUser args := by
  simp only [anyCallsUser_eq_any, List.any_reverse]

/-- Straight-line code that calls no user function needs no definitions. -/
theorem StraightExpr.callFree {P : PrimOp → Nat → Prop}
    {D D' : YulFunctionName → FunctionDefinition → Prop} {expr : Expr} :
    StraightExpr P D expr → expr.callsUser = false → StraightExpr P D' expr
  | .var id, _ => .var id
  | .lit val, _ => .lit val
  | .prim allowed operands, free => by
      refine .prim allowed ?_
      intro arg member
      rw [Expr.callsUser, anyCallsUser_eq_any, List.any_eq_false] at free
      exact (operands arg member).callFree (Bool.eq_false_iff.mpr (free arg member))
  | .call _ _ _, free => nomatch free

/-- Where no user function is called, the definitions do not matter. -/
theorem StraightStmt.callFree {P : PrimOp → Nat → Prop}
    {D D' : YulFunctionName → FunctionDefinition → Prop} {stmt : Stmt} :
    StraightStmt P D stmt → stmt.callsUser = false → StraightStmt P D' stmt
  | .declare vars, _ => .declare vars
  | .bind vars value, free => .bind vars (value.callFree free)
  | .perform effect, free => .perform (effect.callFree free)

/-! ## Settings -/

variable [FFI]

/-- A setting for straight-line code.  The states satisfy `I`, the exceptions `E`,
and `returns` tells whether calls of user functions return. -/
structure Setting (codeOverride : Option YulContract) (P : PrimOp → Nat → Prop)
    (D : YulFunctionName → FunctionDefinition → Prop) (I : State → Prop)
    (E : Exception → Prop) (returns : Prop) : Prop where
  insert : ∀ state var val, I state → I (state.insert var val)
  prim : ∀ {prim count}, P prim count →
    Eventually (fun input => I input.1 ∧ input.2.length = count) (runPrim prim)
      (fun output => I output.1) E
  call : ∀ {f definition}, D f definition →
    Eventually I (runStmt codeOverride (.Block definition.body)) I E →
    Eventually (fun input => I input.1) (runCall codeOverride f)
      (fun output => I output.1 ∧ returns) E

namespace Setting

variable {codeOverride : Option YulContract} {P : PrimOp → Nat → Prop}
variable {D : YulFunctionName → FunctionDefinition → Prop} {I : State → Prop}
variable {E : Exception → Prop} {returns : Prop}

/-- What a statement eventually does: it keeps the invariant, and it calls a user
function only if such calls return. -/
abbrev Executes (codeOverride : Option YulContract) (I : State → Prop)
    (E : Exception → Prop) (returns : Prop) (stmt : Stmt) : Prop :=
  Eventually I (runStmt codeOverride stmt)
    (fun state => I state ∧ (stmt.callsUser = true → returns)) E

/-- The same for an expression.  The interpreter treats the value of a declaration
apart from an operand, so that both uses have to be covered. -/
structure Evaluates (codeOverride : Option YulContract) (I : State → Prop)
    (E : Exception → Prop) (returns : Prop) (expr : Expr) : Prop where
  operand : Eventually I (runExpr codeOverride expr)
    (fun output => I output.1 ∧ (expr.callsUser = true → returns)) E
  declared : ∀ vars, Executes codeOverride I E returns (.Let vars (some expr))

/-- Arguments are evaluated if each of them is. -/
theorem evaluates_args {args : List Expr}
    (each : ∀ arg ∈ args, Evaluates codeOverride I E returns arg) :
    Eventually I (runArgs codeOverride args)
      (fun output => (I output.1 ∧ output.2.length = args.length) ∧
        (anyCallsUser args = true → returns)) E := by
  induction args with
  | nil =>
      rw [runArgs_nil]
      apply Eventually.tick_const
      intro state holds
      exact ⟨⟨holds, rfl⟩, fun calls => nomatch calls⟩
  | cons arg args ih =>
      have head := (each arg List.mem_cons_self).operand
      have tail := ih fun arg member => each arg (List.mem_cons_of_mem _ member)
      rw [runArgs_cons]
      refine Eventually.tick (head.seq (Eventually.tick ?_))
      apply Eventually.framed tail (fun input both => both.1)
      intro input output before after
      refine ⟨⟨after.1.1, congrArg (· + 1) after.1.2⟩, ?_⟩
      intro calls
      simp only [anyCallsUser, Bool.or_eq_true] at calls
      exact calls.elim before.2 after.2

theorem evaluates_operands {args : List Expr}
    (each : ∀ arg ∈ args, Evaluates codeOverride I E returns arg) :
    Eventually I (runOperands codeOverride args)
      (fun output => (I output.1 ∧ output.2.length = args.length) ∧
        (anyCallsUser args = true → returns)) E := by
  have reversed : ∀ arg ∈ args.reverse, Evaluates codeOverride I E returns arg :=
    fun arg member => each arg (List.mem_reverse.mp member)
  apply Eventually.framed (evaluates_args reversed) (fun _ => id)
  intro _ output _ after
  rw [List.length_reverse, anyCallsUser_reverse] at after
  exact ⟨⟨after.1.1, (List.length_reverse ..).trans after.1.2⟩, after.2⟩

/-- Binding values to variables changes the variable store alone. -/
theorem invariant_multifill (setting : Setting codeOverride P D I E returns)
    {state : State} (vars : List Identifier) (vals : List Literal) (holds : I state) :
    I (state.multifill vars vals) := by
  cases state with
  | Ok shared store =>
      simp only [State.multifill]
      induction vars.zip vals with
      | nil => exact holds
      | cons entry entries ih => exact setting.insert _ entry.1 entry.2 ih
  | OutOfFuel => exact holds
  | Checkpoint jump => exact holds

theorem executes_declare (setting : Setting codeOverride P D I E returns)
    (vars : List Identifier) : Executes codeOverride I E returns (.Let vars none) := by
  simp only [Executes]
  rw [runStmt_declare]
  apply Eventually.tick_const
  intro state holds
  refine ⟨?_, fun calls => nomatch calls⟩
  induction vars with
  | nil => exact holds
  | cons var vars ih => exact setting.insert _ var _ ih

theorem evaluates_var (setting : Setting codeOverride P D I E returns) (id : Identifier) :
    Evaluates codeOverride I E returns (.Var id) where
  operand := by
    rw [runExpr_var]
    exact Eventually.tick_const fun _ holds => ⟨holds, fun calls => nomatch calls⟩
  declared vars := by
    simp only [Executes]
    rw [runStmt_let_var]
    apply Eventually.tick_const
    intro state holds
    exact ⟨setting.insert state vars.head! state[id]! holds, fun calls => nomatch calls⟩

theorem evaluates_lit (setting : Setting codeOverride P D I E returns) (val : Literal) :
    Evaluates codeOverride I E returns (.Lit val) where
  operand := by
    rw [runExpr_lit]
    exact Eventually.tick_const fun _ holds => ⟨holds, fun calls => nomatch calls⟩
  declared vars := by
    simp only [Executes]
    rw [runStmt_let_lit]
    apply Eventually.tick_const
    intro state holds
    exact ⟨setting.insert state vars.head! val holds, fun calls => nomatch calls⟩

theorem evaluates_prim (setting : Setting codeOverride P D I E returns) {prim : PrimOp}
    {args : List Expr} (allowed : P prim args.length)
    (each : ∀ arg ∈ args, Evaluates codeOverride I E returns arg) :
    Evaluates codeOverride I E returns (.Call (.inl prim) args) := by
  have applied := (setting.prim allowed).frame (anyCallsUser args = true → returns)
  constructor
  · rw [runExpr_prim]
    refine Eventually.tick ((evaluates_operands each).seq ?_)
    exact applied.framed (fun _ => id) fun _ _ _ after => after
  · intro vars
    simp only [Executes]
    rw [runStmt_let_prim]
    refine Eventually.tick ((evaluates_operands each).seq ?_)
    apply applied.framed (fun _ => id)
    intro _ output _ after
    exact ⟨setting.invariant_multifill vars output.2 after.1, after.2⟩

/-- A user function is called if its body is executed. -/
theorem evaluates_call (setting : Setting codeOverride P D I E returns)
    {f : YulFunctionName} {definition : FunctionDefinition} {args : List Expr}
    (defined : D f definition)
    (each : ∀ arg ∈ args, Evaluates codeOverride I E returns arg)
    (body : Eventually I (runStmt codeOverride (.Block definition.body)) I E) :
    Evaluates codeOverride I E returns (.Call (.inr f) args) := by
  have called := setting.call defined body
  constructor
  · rw [runExpr_call]
    refine Eventually.tick ((evaluates_operands each).seq (Eventually.tick ?_))
    apply called.framed (fun _ before => before.1.1)
    exact fun _ _ _ after => ⟨after.1, fun _ => after.2⟩
  · intro vars
    simp only [Executes]
    rw [runStmt_let_call]
    refine Eventually.tick ((evaluates_operands each).seq (Eventually.tick ?_))
    apply called.framed (fun _ before => before.1.1)
    intro _ output _ after
    exact ⟨setting.invariant_multifill vars output.2 after.1, fun _ => after.2⟩

/-! ### Statements and blocks -/

/-- A block is executed if each statement is. -/
theorem block {stmts : List Stmt}
    (each : ∀ stmt ∈ stmts, Executes codeOverride I E returns stmt) :
    Eventually I (runStmt codeOverride (.Block stmts))
      (fun state => I state ∧ (stmts.any Stmt.callsUser = true → returns)) E := by
  induction stmts with
  | nil =>
      rw [runStmt_block_nil]
      exact Eventually.tick_const fun _ holds => ⟨holds, fun calls => nomatch calls⟩
  | cons stmt stmts ih =>
      have tail := ih fun stmt member => each stmt (List.mem_cons_of_mem _ member)
      rw [runStmt_block_cons]
      refine Eventually.tick ((each stmt List.mem_cons_self).seq (Eventually.assume ?_))
      intro headReturns
      apply tail.mono_normal
      intro state both
      use both.1
      intro calls
      simp only [List.any_cons, Bool.or_eq_true] at calls
      exact calls.elim headReturns both.2

/-! ### Straight-line code in a setting -/

mutual
/-- Straight-line expressions are evaluated, by induction on their structure. -/
theorem evaluates (setting : Setting codeOverride P D I E returns) {expr : Expr} :
    StraightExpr P D expr → Evaluates codeOverride I E returns expr
  | .var id => setting.evaluates_var id
  | .lit val => setting.evaluates_lit val
  | .prim allowed operands =>
      setting.evaluates_prim allowed fun arg member =>
        setting.evaluates (operands arg member)
  | .call defined operands body =>
      setting.evaluates_call defined
        (fun arg member => setting.evaluates (operands arg member))
        ((block fun stmt member => setting.executes (body stmt member)).mono_normal
          fun _ after => after.1)

/-- Straight-line statements are executed. -/
theorem executes (setting : Setting codeOverride P D I E returns) {stmt : Stmt} :
    StraightStmt P D stmt → Executes codeOverride I E returns stmt
  | .declare vars => setting.executes_declare vars
  | .bind vars value => (setting.evaluates value).declared vars
  | .perform effect => by
      simp only [Executes]
      rw [runStmt_exprStmt]
      exact (setting.evaluates effect).declared []
end

end Setting

end YulGasRules.Yul
