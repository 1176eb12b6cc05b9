import YulGasRules.Yul.OnPaper

/-!
# The effects of code

Where code has an effect on paper, the interpreter has the same effect on the variables
and on the stores of the machine.  An instruction uses one store, statements keep to the
order that they have on paper, a loop takes as many turns, and functions are nested as
deep.  Code that halts on paper halts the interpreter.
-/

namespace YulGasRules.Yul

open Fuel

/-! ## Outcomes that show an effect -/

/-- The state has the variables of the sheet, and its stores stand for the ones there. -/
def At (inputs : Inputs) (sheet : Sheet) (state : State) : Prop :=
  ∃ shared, state = .Ok shared sheet.vars ∧ Stands shared inputs sheet.stores

/-- The same for a state with a result. -/
def Gives {α : Type} (inputs : Inputs) (result : Sheet × α) (output : State × α) : Prop :=
  At inputs result.1 output.1 ∧ result.2 = output.2

/-- The exception with which the interpreter halts. -/
def Halt.Shows (inputs : Inputs) : Halt → Exception → Prop
  | .reverts, exception => exception = .Revert
  | .stops stores, exception =>
      ∃ shared vars val, exception = .YulHalt (.Ok shared vars) val ∧
        Stands shared inputs stores
  | .returns stores data, exception =>
      ∃ shared vars val, exception = .YulHalt (.Ok shared vars) val ∧
        Stands shared inputs stores ∧ shared.H_return = data

/-- The outcome of an evaluation shows the effect on paper. -/
abbrev Yields {α : Type} (inputs : Inputs) (effect : Effect Halt (Sheet × α)) :
    Outcome α → Prop :=
  effect.Describes (Halt.Shows inputs) (Gives inputs)

/-- The outcome of an execution shows the effect on paper. -/
abbrev Leads (inputs : Inputs) (effect : Effect Halt Sheet) : Except Exception State → Prop :=
  effect.Describes (Halt.Shows inputs) (At inputs)

/-! ## Instructions and functions -/

section Calls

variable [FFI] (codeOverride : Option YulContract) {inputs : Inputs} {calls : Calls}
variable {sheet : Sheet} {state : State} {prim : PrimOp} {args : List Literal}

theorem own_of_step {stores : Stores} {output : Stores × List Literal}
    (steps : stores.step inputs prim args = some output) : prim ∉ contractCalls := by
  simp only [Stores.step] at steps
  split at steps
  case h_19 =>
      simp only [Option.map_eq_some_iff, Inputs.read] at steps
      rcases steps with ⟨val, reads, -⟩
      split at reads <;> first | decide | cases reads
  all_goals first | decide | cases steps

/-- A halt shows the stores and the bytes that are returned. -/
theorem halt_described {shared : SharedState .Yul}
    (stands : Stands shared inputs sheet.stores) (near : prim.reach args < 2 ^ 64) :
    Yields inputs (sheet.stores.halt prim args)
      (primMeaning prim (.Ok shared sheet.vars, args)) := by
  have allowed := stands.allowed sheet.vars
  simp only [Stores.halt]
  split
  · rw [primMeaning_of_own (by decide) (allowed _)]
    exact ⟨_, rfl, shared, sheet.vars, ⟨0⟩, rfl, stands⟩
  · rename_i p s
    rw [primMeaning_of_own (by decide) (allowed _)]
    obtain ⟨holds, data⟩ := stands.memory.evmReturn near
    exact ⟨_, rfl, _, sheet.vars, ⟨1⟩, rfl, stands.of_machine holds rfl, data⟩
  · rw [primMeaning_of_own (by decide) (allowed _)]
    exact ⟨_, rfl, rfl⟩
  · trivial

/-- An operation has the effect that it has on paper. -/
theorem run_described (at' : At inputs sheet state) :
    Yields inputs (sheet.run inputs prim args) (primMeaning prim (state, args)) := by
  obtain ⟨shared, rfl, stands⟩ := at'
  have allowed := stands.allowed sheet.vars
  rw [Sheet.run]
  split
  · rename_i n number
    rw [primMeaning_of_number number]
    exact ⟨_, rfl, ⟨shared, rfl, stands⟩, rfl⟩
  · split
    · rename_i near
      split
      · rename_i stores vals steps
        obtain ⟨shared', result, ends, rfl, stands'⟩ := stands.step sheet.vars steps near
        rw [primMeaning_of_own (own_of_step steps) (allowed _), ends]
        exact ⟨_, rfl, ⟨shared', rfl, stands'⟩, rfl⟩
      · exact halt_described stands near
    · trivial

/-- The interpreter's calls have the effects that the calls on paper have. -/
def Calls.Sound (inputs : Inputs) (calls : Calls) : Prop :=
  ∀ f args ⦃sheet state⦄, At inputs sheet state →
    Yields inputs (calls f sheet args) (callMeaning codeOverride f (state, args))

/-- So has a call of a user function, if those on paper are sound. -/
theorem apply_described (sound : calls.Sound codeOverride inputs) (f : PrimOp ⊕ YulFunctionName)
    (args : List Literal) (at' : At inputs sheet state) :
    Yields inputs (sheet.apply inputs calls f args)
      (appliedMeaning codeOverride f (state, args)) := by
  cases f with
  | inl prim => exact run_described at'
  | inr f => exact sound f args at'

end Calls

/-! ## Expressions -/

section Operands

variable [FFI] {codeOverride : Option YulContract} {inputs : Inputs} {calls : Calls}

omit [FFI] in
theorem single_described {result : Sheet × List Literal} {output : State × List Literal}
    (gives : Gives inputs result output) :
    Yields inputs (single result) (.ok (output.1, output.2.head!)) := by
  obtain ⟨sheet, vals⟩ := result
  obtain ⟨state, _⟩ := output
  obtain ⟨at', rfl⟩ := gives
  match vals with
  | [val] => exact ⟨(state, val), rfl, at', rfl⟩
  | [] | _ :: _ :: _ => trivial

mutual
/-- An expression has its effect on paper, by induction on its structure. -/
theorem expr_described (sound : calls.Sound codeOverride inputs) {sheet : Sheet} {state : State}
    (at' : At inputs sheet state) :
    (expr : Expr) →
      Yields inputs (expr.onPaper inputs calls sheet) (exprMeaning codeOverride expr state)
  | .Var id => by
      obtain ⟨shared, rfl, stands⟩ := at'
      rw [exprMeaning_var]
      exact ⟨_, rfl, ⟨shared, rfl, stands⟩, (State.getElem!_ok ..).symm⟩
  | .Lit val => by
      rw [exprMeaning_lit]
      exact ⟨_, rfl, at', rfl⟩
  | .Call f args => by
      rw [exprMeaning_applied]
      apply (operands_described sound at' args).bind
      rintro ⟨sheet, vals⟩ ⟨state, _⟩ ⟨at', rfl⟩
      exact (apply_described codeOverride sound f vals at').bind_map
        fun result output gives => single_described gives

theorem operands_described (sound : calls.Sound codeOverride inputs) {sheet : Sheet}
    {state : State} (at' : At inputs sheet state) :
    (args : List Expr) → Yields inputs (operandsOnPaper inputs calls args sheet)
      (operandsMeaning codeOverride args state)
  | [] => by
      simp only [operandsMeaning_eq, List.reverse_nil, argsMeaning_nil, Except.map]
      exact ⟨_, rfl, at', rfl⟩
  | arg :: args => by
      rw [operandsMeaning_cons]
      apply (operands_described sound at' args).bind
      rintro ⟨sheet, vals⟩ ⟨state, _⟩ ⟨at', rfl⟩
      apply (expr_described sound at' arg).map
      rintro ⟨sheet, val⟩ ⟨state, _⟩ ⟨at', rfl⟩
      exact ⟨at', rfl⟩
end

end Operands

/-! ## Statements -/

section Statements

theorem foldr_insert_ok (shared : SharedState .Yul) (store : VarStore) (vars : List Identifier) :
    vars.foldr (fun var state => state.insert var ⟨0⟩) (State.Ok shared store) =
      .Ok shared (store.declare vars) := by
  induction vars with
  | nil => rfl
  | cons var vars ih =>
      rw [List.foldr_cons, ih]
      rfl

theorem multifill_ok (shared : SharedState .Yul) (store : VarStore) (vars : List Identifier)
    (vals : List Literal) :
    (State.Ok shared store).multifill vars vals = .Ok shared (store.bind vars vals) := by
  simp only [State.multifill, VarStore.bind]
  induction vars.zip vals with
  | nil => rfl
  | cons entry entries ih =>
      rw [List.foldr_cons, ih]
      rfl

variable [FFI] {codeOverride : Option YulContract} {inputs : Inputs} {calls : Calls}

variable (codeOverride inputs) in
/-- The effect on paper is the effect of the statement. -/
abbrev Stmt.Has (stmt : Stmt) (effect : Sheet → Effect Halt Sheet) : Prop :=
  ∀ ⦃sheet state⦄, At inputs sheet state →
    Leads inputs (effect sheet) (stmtMeaning codeOverride stmt state)

/-- A declaration binds the results on paper. -/
theorem let_has (sound : calls.Sound codeOverride inputs) (vars : List Identifier)
    (f : PrimOp ⊕ YulFunctionName) (args : List Expr) :
    Stmt.Has codeOverride inputs (.Let vars (some (.Call f args)))
      (letOnPaper inputs calls vars f args) := by
  intro sheet state at'
  rw [stmtMeaning_let_applied]
  apply (operands_described sound at' args).bind
  rintro ⟨sheet, vals⟩ ⟨state, _⟩ ⟨at', rfl⟩
  apply (apply_described codeOverride sound f vals at').map
  rintro ⟨sheet, vals⟩ ⟨_, _⟩ ⟨⟨shared, rfl, stands⟩, rfl⟩
  exact ⟨shared, multifill_ok .., stands⟩

/-- What is left of a loop after a body that ends in an ordinary state. -/
theorem afterMeaning_ok (cond : Expr) (post body : List Stmt)
    (shared shared' : SharedState .Yul) (vars vars' : VarStore) :
    afterMeaning codeOverride cond post body (.Ok shared vars) (.Ok shared' vars') =
      (stmtMeaning codeOverride (.Block post) (.Ok shared' vars')).bind
        (stmtMeaning codeOverride (.For cond post body)) := by
  have unframed (next : State) :
      (stmtMeaning codeOverride (.For cond post body) next).map (fun last => last) =
        stmtMeaning codeOverride (.For cond post body) next := congrFun Except.map_id _
  exact congrArg (Except.bind _) (funext unframed)

/-- A loop has its effect on paper, by induction on the turns that it takes. -/
theorem loop_has (sound : calls.Sound codeOverride inputs) (cond : Expr) {post body : List Stmt}
    {first last : Sheet → Effect Halt Sheet}
    (bodies : Stmt.Has codeOverride inputs (.Block body) first)
    (posts : Stmt.Has codeOverride inputs (.Block post) last) (turns : Nat) :
    Stmt.Has codeOverride inputs (.For cond post body)
      (loopOnPaper (cond.onPaper inputs calls) first last turns) := by
  induction turns with
  | zero => exact fun _ _ _ => trivial
  | succ turns ih =>
      rintro sheet _ ⟨shared, rfl, stands⟩
      rw [stmtMeaning_for]
      apply (expr_described sound ⟨shared, rfl, stands⟩ cond).bind
      rintro ⟨sheet, val⟩ ⟨state, _⟩ ⟨at', rfl⟩
      by_cases zero : val = ⟨0⟩
      · simp only [if_pos zero]
        exact ⟨state, rfl, at'⟩
      · simp only [if_neg zero]
        apply (bodies at').bind
        rintro sheet _ ⟨shared', rfl, stands'⟩
        rw [afterMeaning_ok]
        apply (posts ⟨shared', rfl, stands'⟩).bind
        exact fun sheet state at' => ih at'

mutual
/-- A statement has its effect on paper, by induction on its structure. -/
theorem stmt_has (sound : calls.Sound codeOverride inputs) (turns : Nat) :
    (stmt : Stmt) → stmt.Has codeOverride inputs (stmt.onPaper inputs calls turns)
  | .Block stmts => block_has sound turns stmts
  | .Let vars none => by
      rintro sheet _ ⟨shared, rfl, stands⟩
      simp only [stmtMeaning_declare, foldr_insert_ok]
      exact ⟨_, rfl, shared, rfl, stands⟩
  | .Let vars (some (.Call f args)) => let_has sound vars f args
  | .Let [var] (some (.Var id)) => by
      rintro sheet _ ⟨shared, rfl, stands⟩
      simp only [stmtMeaning_let_var, State.getElem!_ok]
      exact ⟨_, rfl, shared, rfl, stands⟩
  | .Let [var] (some (.Lit val)) => by
      rintro sheet _ ⟨shared, rfl, stands⟩
      rw [stmtMeaning_let_lit]
      exact ⟨_, rfl, shared, rfl, stands⟩
  | .ExprStmtCall (.Call f args) => by
      intro sheet state at'
      rw [stmtMeaning_exprStmt]
      exact let_has sound [] f args at'
  | .If cond body => by
      intro sheet state at'
      rw [stmtMeaning_if]
      apply (expr_described sound at' cond).bind
      rintro ⟨sheet, val⟩ ⟨state, _⟩ ⟨at', rfl⟩
      by_cases zero : val = ⟨0⟩
      · simp only [if_pos zero, if_neg (not_not.mpr zero)]
        exact ⟨state, rfl, at'⟩
      · simp only [if_neg zero, ne_eq, if_pos zero]
        exact block_has sound turns body at'
  | .Switch cond branches default' => by
      intro sheet state at'
      rw [stmtMeaning_switch]
      apply (expr_described sound at' cond).bind
      rintro ⟨sheet, val⟩ ⟨state, _⟩ ⟨at', rfl⟩
      apply (block_has sound turns default' at').bind
      exact fun after afterState otherwise => branches_have sound turns at' otherwise branches
  | .For cond post body =>
      loop_has sound cond (block_has sound turns body) (block_has sound turns post) turns
  | .Let [] (some (.Var _)) | .Let [] (some (.Lit _)) | .Let (_ :: _ :: _) (some (.Var _))
  | .Let (_ :: _ :: _) (some (.Lit _)) | .ExprStmtCall (.Var _) | .ExprStmtCall (.Lit _)
  | .Continue | .Break | .Leave => fun _ _ _ => trivial

theorem block_has (sound : calls.Sound codeOverride inputs) (turns : Nat) :
    (stmts : List Stmt) →
      Stmt.Has codeOverride inputs (.Block stmts) (blockOnPaper inputs calls turns stmts)
  | [] => by
      intro sheet state at'
      rw [stmtMeaning_block_nil]
      exact ⟨state, rfl, at'⟩
  | stmt :: stmts => by
      intro sheet state at'
      rw [stmtMeaning_block_cons]
      apply (stmt_has sound turns stmt at').bind
      exact fun sheet state at' => block_has sound turns stmts at'

/-- The branches of a switch are all executed, and one is selected. -/
theorem branches_have (sound : calls.Sound codeOverride inputs) (turns : Nat) {val : Literal}
    {sheet after : Sheet} {state afterState : State} (at' : At inputs sheet state)
    (otherwise : At inputs after afterState) :
    (branches : List (Literal × List Stmt)) →
      Leads inputs (branchesOnPaper inputs calls turns branches val after sheet)
        (selectCase val (.ok afterState) (casesMeaning codeOverride branches state))
  | [] => ⟨afterState, rfl, otherwise⟩
  | (label, stmts) :: branches => by
      rw [branchesOnPaper]
      simp only [casesMeaning, List.map_cons, selectCase, List.foldr_cons]
      by_cases same : label = val
      · rw [if_pos same, if_pos same]
        exact block_has sound turns stmts at'
      · rw [if_neg same, if_neg same]
        exact branches_have sound turns at' otherwise branches
end

end Statements

/-! ## Calls of functions -/

section Functions

variable [FFI] {codeOverride : Option YulContract} {inputs : Inputs}

omit [FFI] in
/-- A function starts with its parameters alone. -/
theorem enterCall_ok (definition : FunctionDefinition) (shared : SharedState .Yul)
    (vars : VarStore) (args : List Literal) :
    enterCall definition (.Ok shared vars, args) =
      .Ok shared (VarStore.bind default definition.params args) :=
  congrArg State.mkOk (multifill_ok shared default definition.params args)

variable (codeOverride inputs) in
/-- Calls on paper are sound, by induction on their depth. -/
theorem callsOnPaper_sound (depth : Nat) :
    (callsOnPaper inputs (codeOverride.getD inputs.code) depth).Sound codeOverride inputs := by
  induction depth with
  | zero => exact fun _ _ _ _ _ => trivial
  | succ depth ih =>
      rintro f args sheet _ ⟨shared, rfl, stands⟩
      simp only [callsOnPaper]
      split
      · trivial
      · rename_i definition found
        have entered : At inputs ⟨sheet.stores, VarStore.bind default definition.params args⟩
            (.Ok shared (VarStore.bind default definition.params args)) := ⟨shared, rfl, stands⟩
        rw [callMeaning_of_running codeOverride (stands.running sheet.vars) found, enterCall_ok]
        apply (block_has ih depth definition.body entered).map
        rintro final _ ⟨shared', rfl, stands'⟩
        exact ⟨⟨shared', rfl, stands'⟩, rfl⟩

/-- What code does on paper, the interpreter does with enough fuel. -/
theorem exec_onPaper (stmt : Stmt) (depth turns : Nat) {sheet : Sheet}
    {shared : SharedState .Yul} (stands : Stands shared inputs sheet.stores) :
    ∃ outcome,
      (∃ N, ∀ n, N ≤ n → exec n stmt codeOverride (.Ok shared sheet.vars) = outcome) ∧
      Leads inputs (stmt.onPaper inputs
        (callsOnPaper inputs (codeOverride.getD inputs.code) depth) turns sheet) outcome := by
  have settles := (growing_stmt codeOverride stmt).settles_meaning (.Ok shared sheet.vars)
  exact ⟨_, settles, stmt_has (callsOnPaper_sound codeOverride inputs depth) turns stmt
    ⟨shared, rfl, stands⟩⟩

end Functions

/-! ## An example -/

/-- A loop whose condition is zero after some number of turns. -/
theorem loopOnPaper_of_turns {cond : Sheet → Effect Halt (Sheet × Literal)}
    {body post : Sheet → Effect Halt Sheet} (sheets : Nat → Sheet) {final : Sheet} (count : Nat)
    (taken : ∀ k, k < count → ∃ before val after, cond (sheets k) = .ends (before, val) ∧
      val ≠ ⟨0⟩ ∧ body before = .ends after ∧ post after = .ends (sheets (k + 1)))
    (ends : cond (sheets count) = .ends (final, ⟨0⟩)) :
    loopOnPaper cond body post (count + 1) (sheets 0) = .ends final := by
  induction count generalizing sheets with
  | zero => simp only [loopOnPaper, ends, Effect.bind, if_pos]
  | succ count ih =>
      rcases taken 0 (Nat.succ_pos count) with
        ⟨before, val, after, evaluates, nonzero, turned, posted⟩
      have rest := ih (fun k => sheets (k + 1))
        (fun k below => taken (k + 1) (Nat.succ_lt_succ below)) ends
      simp only [loopOnPaper, evaluates, Effect.bind, if_neg nonzero, turned, posted]
      exact rest

/-- `function square(x) -> y { y := mul(x, x) }` -/
def squareCode : YulContract where
  dispatcher := .Block []
  functions := (∅ : Finmap fun _ : YulFunctionName => FunctionDefinition).insert "square"
    (.Def ["x"] ["y"] [.Let ["y"] (some (.Call (.inl .MUL) [.Var "x", .Var "x"]))])

/-- `for {} lt(i, 3) { i := add(i, 1) } { sstore(i, square(i)) }` -/
def squares : Stmt :=
  .For (.Call (.inl .LT) [.Var "i", .Lit ⟨3⟩])
    [.Let ["i"] (some (.Call (.inl .ADD) [.Var "i", .Lit ⟨1⟩]))]
    [.ExprStmtCall (.Call (.inl .SSTORE) [.Var "i", .Call (.inr "square") [.Var "i"]])]

/-- The inputs of the contract. -/
def squareInputs : Inputs where
  code := squareCode
  env := { (default : ExecutionEnv .Yul) with perm := true }
  permitted := rfl
  returned := ByteArray.empty

/-- A fresh account that runs the code. -/
def squareShared : SharedState .Yul :=
  { (default : SharedState .Yul) with
    accountMap := (∅ : AccountMap .Yul).insert 0
      { (default : Account .Yul) with code := squareCode }
    executionEnv := squareInputs.env }

/-- What so many turns leave behind. -/
def squareSheet : Nat → Sheet
  | 0 => ⟨⟨fun _ => 0, fun _ => ⟨0⟩, fun _ => ⟨0⟩, #[]⟩, default⟩
  | k + 1 =>
      { squareSheet k with
        stores.storage :=
          Function.update (squareSheet k).stores.storage (.ofNat k) (.ofNat (k ^ 2))
        vars := (squareSheet k).vars.insert "i" (.ofNat (k + 1)) }

theorem squareShared_stands : Stands squareShared squareInputs (squareSheet 0).stores where
  memory := MachineState.holds_default
  env := rfl
  returned := rfl
  account := ⟨_, Finmap.lookup_insert _, rfl, rfl, rfl⟩
  logs := rfl

/-- On paper the loop turns three times. -/
theorem squares_onPaper [FFI] :
    squares.onPaper squareInputs
        (callsOnPaper squareInputs (Option.getD none squareInputs.code) 1) 4 (squareSheet 0) =
      .ends (squareSheet 3) := by
  rw [squares, Stmt.onPaper]
  apply loopOnPaper_of_turns squareSheet 3
  · intro k below
    use squareSheet k, ⟨1⟩, { squareSheet k with stores := (squareSheet (k + 1)).stores }
    match k, below with
    | 0, _ | 1, _ | 2, _ => exact ⟨rfl, by decide, rfl, rfl⟩
  · rfl

/-- The loop ends, and has stored three squares. -/
theorem exec_squares :
    ∃ shared', Stands shared' squareInputs (squareSheet 3).stores ∧
      ∃ N, ∀ n, N ≤ n →
        @exec ⟨fun _ => ByteArray.empty⟩ n squares none (.Ok squareShared default) =
          .ok (.Ok shared' (squareSheet 3).vars) := by
  have shows := @exec_onPaper ⟨fun _ => ByteArray.empty⟩ none squareInputs squares 1 4
    (squareSheet 0) _ squareShared_stands
  rw [@squares_onPaper ⟨fun _ => ByteArray.empty⟩] at shows
  obtain ⟨_, runs, _, rfl, shared', rfl, stands⟩ := shows
  exact ⟨shared', stands, runs⟩

end YulGasRules.Yul
