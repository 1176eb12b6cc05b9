import Mathlib.Data.Set.Defs
import Mathlib.Data.Set.Basic
import YulGasRules.Yul.Interpreter

/-!
# Variables that code does not mention

Code neither reads nor writes the variables that it does not mention, its strangers.
Two states that differ in what the strangers hold are followed side by side: whatever
relation holds between these values keeps holding.

Jumps take the variable store with them.  They are followed as far as the code lets
them escape.
-/

namespace YulGasRules.Yul

/-! ## Values in a store -/

/-- The value of a variable in a store, `0` if not found. -/
def VarStore.value (store : VarStore) (id : Identifier) : Literal :=
  (store.lookup id).get!

@[simp] theorem VarStore.value_insert_self (store : VarStore) (id : Identifier)
    (val : Literal) : VarStore.value (store.insert id val) id = val := by
  rw [VarStore.value, Finmap.lookup_insert]
  rfl

@[simp] theorem VarStore.value_insert_of_ne (store : VarStore) {id var : Identifier}
    (distinct : id ≠ var) (val : Literal) :
    VarStore.value (store.insert var val) id = VarStore.value store id := by
  rw [VarStore.value, Finmap.lookup_insert_of_ne store distinct, VarStore.value]

/-- A variable that is not bound reads as `0`. -/
theorem State.getElem!_ok (shared : SharedState .Yul) (store : VarStore) (id : Identifier) :
    (State.Ok shared store)[id]! = store.value id := by
  by_cases bound : id ∈ store
  · exact getElem!_pos (State.Ok shared store) id bound
  · rw [getElem!_neg (State.Ok shared store) id bound, VarStore.value,
      Finmap.lookup_eq_none.mpr bound]
    rfl

/-! ## Jumps -/

inductive JumpKind where
  | Continue
  | Break
  | Leave

/-- The jump that leaves a state behind. -/
def JumpKind.jump : JumpKind → SharedState .Yul → VarStore → Jump
  | .Continue => .Continue
  | .Break => .Break
  | .Leave => .Leave

/-! ## Code and its strangers -/

section Avoids

variable (X : Set Identifier) (P : PrimOp → Prop)

/-- The expression mentions no variable in `X`, and applies only operations in `P`. -/
inductive AvoidsExpr : Expr → Prop where
  | var {id : Identifier} (stranger : id ∉ X) : AvoidsExpr (.Var id)
  | lit (val : Literal) : AvoidsExpr (.Lit val)
  | prim {prim : PrimOp} {args : List Expr} (allowed : P prim)
      (operands : ∀ arg ∈ args, AvoidsExpr arg) : AvoidsExpr (.Call (.inl prim) args)
  | call (f : YulFunctionName) {args : List Expr} (operands : ∀ arg ∈ args, AvoidsExpr arg) :
      AvoidsExpr (.Call (.inr f) args)

/-- The same for a statement, from which only the jumps in `J` escape.  A binding
without variables writes to the default variable. -/
inductive AvoidsStmt : Set JumpKind → Stmt → Prop where
  | block {J : Set JumpKind} {stmts : List Stmt} (each : ∀ stmt ∈ stmts, AvoidsStmt J stmt) :
      AvoidsStmt J (.Block stmts)
  | declare {J : Set JumpKind} {vars : List Identifier} (targets : ∀ var ∈ vars, var ∉ X) :
      AvoidsStmt J (.Let vars none)
  | bind {J : Set JumpKind} {vars : List Identifier} {expr : Expr}
      (targets : ∀ var ∈ vars.head! :: vars, var ∉ X) (value : AvoidsExpr X P expr) :
      AvoidsStmt J (.Let vars (some expr))
  | perform {J : Set JumpKind} {expr : Expr} (effect : AvoidsExpr X P expr) :
      AvoidsStmt J (.ExprStmtCall expr)
  | switch {J : Set JumpKind} {cond : Expr} {branches : List (Literal × List Stmt)}
      {default' : List Stmt} (selector : AvoidsExpr X P cond)
      (cases' : ∀ branch ∈ branches, AvoidsStmt J (.Block branch.2))
      (otherwise : AvoidsStmt J (.Block default')) :
      AvoidsStmt J (.Switch cond branches default')
  | for {J : Set JumpKind} {cond : Expr} {post body : List Stmt}
      (guard : AvoidsExpr X P cond) (update : AvoidsStmt J (.Block post))
      (iterated : AvoidsStmt (insert .Continue (insert .Break J)) (.Block body)) :
      AvoidsStmt J (.For cond post body)
  | if {J : Set JumpKind} {cond : Expr} {body : List Stmt} (guard : AvoidsExpr X P cond)
      (taken : AvoidsStmt J (.Block body)) : AvoidsStmt J (.If cond body)
  | continue {J : Set JumpKind} (escapes : .Continue ∈ J) : AvoidsStmt J .Continue
  | break {J : Set JumpKind} (escapes : .Break ∈ J) : AvoidsStmt J .Break
  | leave {J : Set JumpKind} (escapes : .Leave ∈ J) : AvoidsStmt J .Leave

end Avoids

/-! ## States that differ in the strangers -/

/-- What is known about the values that the strangers hold on the two sides. -/
abbrev StrangerRelation (X : Set Identifier) : Type :=
  (X → Literal) → (X → Literal) → Prop

section Differ

variable (X : Set Identifier) (J : Set JumpKind) (W : StrangerRelation X)

/-- The stores agree elsewhere, and the strangers hold values that `W` relates. -/
structure StoresDiffer (store store' : VarStore) : Prop where
  elsewhere : ∀ id, id ∉ X → store.value id = store'.value id
  strangers : W (fun id => store.value id) (fun id => store'.value id)

/-- The states are of one kind, differ in the variable stores alone, and are left
behind by a jump in `J` at most. -/
inductive Differ : State → State → Prop where
  | ok (shared : SharedState .Yul) {store store' : VarStore}
      (stores : StoresDiffer X W store store') : Differ (.Ok shared store) (.Ok shared store')
  | outOfFuel : Differ .OutOfFuel .OutOfFuel
  | jump {kind : JumpKind} (escapes : kind ∈ J) (shared : SharedState .Yul)
      {store store' : VarStore} (stores : StoresDiffer X W store store') :
      Differ (.Checkpoint (kind.jump shared store)) (.Checkpoint (kind.jump shared store'))

/-- Exceptions are the same, except that a program may halt in states that differ. -/
inductive HaltsDiffer : Exception → Exception → Prop where
  | same (exception : Exception) : HaltsDiffer exception exception
  | halt {state state' : State} (differ : Differ X Set.univ (fun _ _ => True) state state')
      (value : UInt256) : HaltsDiffer (.YulHalt state value) (.YulHalt state' value)

end Differ

variable {X : Set Identifier} {J : Set JumpKind} {W : StrangerRelation X}

namespace StoresDiffer

variable {store store' : VarStore}

/-- Code writes to variables that are not strangers. -/
theorem insert (stores : StoresDiffer X W store store') {var : Identifier} (outside : var ∉ X)
    (val : Literal) : StoresDiffer X W (store.insert var val) (store'.insert var val) := by
  constructor
  · intro id other
    by_cases same : id = var
    · rw [same, VarStore.value_insert_self, VarStore.value_insert_self]
    · rw [VarStore.value_insert_of_ne store same, VarStore.value_insert_of_ne store' same]
      exact stores.elsewhere id other
  · have kept : ∀ (store : VarStore) (id : X),
        VarStore.value (store.insert var val) id = store.value id := by
      intro store id
      apply VarStore.value_insert_of_ne
      intro same
      exact outside (same ▸ id.2)
    simp only [kept]
    exact stores.strangers

/-- A stranger is copied to another one on one side. -/
theorem copy_left {W' : StrangerRelation X} (stores : StoresDiffer X W store store')
    {source var : X}
    (copied : ∀ held held', W held held' →
      W' (Function.update held var (held source)) held') :
    StoresDiffer X W' (store.insert var (store.value source)) store' := by
  constructor
  · intro id outside
    have distinct : id ≠ var := fun same => outside (same ▸ var.2)
    rw [VarStore.value_insert_of_ne store distinct]
    exact stores.elsewhere id outside
  · have updated : (fun id : X => VarStore.value (store.insert var (store.value source)) id) =
        Function.update (fun id : X => store.value id) var (store.value source) := by
      funext id
      by_cases same : id = var
      · rw [same, VarStore.value_insert_self, Function.update_self]
      · rw [VarStore.value_insert_of_ne store (Subtype.coe_ne_coe.mpr same),
          Function.update_of_ne same]
    rw [updated]
    exact copied _ _ stores.strangers

theorem mono {W' : StrangerRelation X} (stores : StoresDiffer X W store store')
    (weaker : ∀ held held', W held held' → W' held held') : StoresDiffer X W' store store' :=
  ⟨stores.elsewhere, weaker _ _ stores.strangers⟩

/-- The strangers that hold the same values on both sides are strangers no more. -/
theorem confine {Y : Set Identifier} (stores : StoresDiffer X W store store')
    (same : ∀ held held', W held held' → ∀ id : X, id.val ∉ Y → held id = held' id) :
    StoresDiffer Y (fun _ _ => True) store store' := by
  refine ⟨?_, trivial⟩
  intro id outside
  by_cases stranger : id ∈ X
  · exact same _ _ stores.strangers ⟨id, stranger⟩ outside
  · exact stores.elsewhere id stranger

end StoresDiffer

namespace Differ

variable {state state' : State}

theorem mono {J' : Set JumpKind} {W' : StrangerRelation X} (differ : Differ X J W state state')
    (escaping : J ⊆ J') (weaker : ∀ held held', W held held' → W' held held') :
    Differ X J' W' state state' := by
  cases differ with
  | ok shared stores => exact .ok shared (stores.mono weaker)
  | outOfFuel => exact .outOfFuel
  | jump escapes shared stores => exact .jump (escaping escapes) shared (stores.mono weaker)

theorem confine {Y : Set Identifier} (differ : Differ X J W state state')
    (same : ∀ held held', W held held' → ∀ id : X, id.val ∉ Y → held id = held' id) :
    Differ Y J (fun _ _ => True) state state' := by
  cases differ with
  | ok shared stores => exact .ok shared (stores.confine same)
  | outOfFuel => exact .outOfFuel
  | jump escapes shared stores => exact .jump escapes shared (stores.confine same)

/-- A state differs from itself if what is known of the strangers is reflexive and any
jump may be pending. -/
theorem refl (reflexive : ∀ held, W held held) (state : State) :
    Differ X Set.univ W state state := by
  have stores : ∀ store, StoresDiffer X W store store :=
    fun store => ⟨fun _ _ => rfl, reflexive _⟩
  cases state with
  | Ok shared store => exact .ok shared (stores store)
  | OutOfFuel => exact .outOfFuel
  | Checkpoint jump =>
      cases jump with
      | Continue shared store => exact .jump (Set.mem_univ .Continue) shared (stores store)
      | Break shared store => exact .jump (Set.mem_univ .Break) shared (stores store)
      | Leave shared store => exact .jump (Set.mem_univ .Leave) shared (stores store)

theorem not_pending (differ : Differ X ∅ W state state') (jump : Jump) :
    state ≠ .Checkpoint jump := by
  cases differ with
  | ok shared stores => exact State.noConfusion
  | outOfFuel => exact State.noConfusion
  | jump escapes shared stores => exact absurd escapes (Set.notMem_empty _)

/-! ### Reads -/

theorem read (differ : Differ X J W state state') {id : Identifier} (outside : id ∉ X) :
    state[id]! = state'[id]! := by
  cases differ with
  | ok shared stores =>
      rw [State.getElem!_ok, State.getElem!_ok]
      exact stores.elsewhere id outside
  | outOfFuel => rfl
  | jump escapes shared stores => rfl

theorem executionEnv_eq (differ : Differ X J W state state') :
    state.executionEnv = state'.executionEnv := by
  cases differ <;> rfl

theorem toMachineState_eq (differ : Differ X J W state state') :
    state.toMachineState = state'.toMachineState := by
  cases differ <;> rfl

theorem toState_eq (differ : Differ X J W state state') : state.toState = state'.toState := by
  cases differ <;> rfl

theorem toSharedState_eq (differ : Differ X J W state state') :
    state.toSharedState = state'.toSharedState := by
  cases differ <;> rfl

theorem sharedState_eq (differ : Differ X J W state state') :
    state.sharedState = state'.sharedState := by
  cases differ <;> rfl

/-! ### Updates -/

theorem insert (differ : Differ X J W state state') {var : Identifier} (outside : var ∉ X)
    (val : Literal) : Differ X J W (state.insert var val) (state'.insert var val) := by
  cases differ with
  | ok shared stores => exact .ok shared (stores.insert outside val)
  | outOfFuel => exact .outOfFuel
  | jump escapes shared stores => exact .jump escapes shared stores

theorem copy_left {W' : StrangerRelation X} {source var : X}
    (differ : Differ X ∅ W state state')
    (copied : ∀ held held', W held held' →
      W' (Function.update held var (held source)) held') :
    Differ X ∅ W' (state.insert var state[source.val]!) state' := by
  cases differ with
  | ok shared stores =>
      rw [State.getElem!_ok]
      exact .ok shared (stores.copy_left copied)
  | outOfFuel => exact .outOfFuel
  | jump escapes shared stores => exact absurd escapes (Set.notMem_empty _)

theorem multifill (differ : Differ X J W state state') {vars : List Identifier}
    (outside : ∀ var ∈ vars, var ∉ X) (vals : List Literal) :
    Differ X J W (state.multifill vars vals) (state'.multifill vars vals) := by
  have filled : ∀ entries : List (Identifier × Literal), (∀ entry ∈ entries, entry.1 ∉ X) →
      Differ X J W (entries.foldr (fun entry state => state.insert entry.1 entry.2) state)
        (entries.foldr (fun entry state => state.insert entry.1 entry.2) state') := by
    intro entries
    induction entries with
    | nil => exact fun _ => differ
    | cons entry entries ih =>
        intro each
        exact (ih fun other member => each other (List.mem_cons_of_mem _ member)).insert
          (each entry List.mem_cons_self) entry.2
  have zipped := filled (vars.zip vals) fun entry member =>
    outside entry.1 (List.of_mem_zip member).1
  cases differ with
  | ok shared stores => exact zipped
  | outOfFuel => exact .outOfFuel
  | jump escapes shared stores => exact .jump escapes shared stores

theorem setSharedState (differ : Differ X J W state state') (shared : SharedState .Yul) :
    Differ X J W (state.setSharedState shared) (state'.setSharedState shared) := by
  cases differ with
  | ok _ stores => exact .ok _ stores
  | outOfFuel => exact .outOfFuel
  | jump escapes _ stores => exact .jump escapes _ stores

/-- A jump leaves an ordinary state behind, and passes over the others. -/
theorem setJump (differ : Differ X J W state state') {kind : JumpKind} (escapes : kind ∈ J)
    {set : State → State}
    (ordinary : ∀ shared store, set (.Ok shared store) = .Checkpoint (kind.jump shared store))
    (exhausted : set .OutOfFuel = .OutOfFuel)
    (pending : ∀ jump, set (.Checkpoint jump) = .Checkpoint jump) :
    Differ X J W (set state) (set state') := by
  cases differ with
  | ok shared stores =>
      rw [ordinary, ordinary]
      exact .jump escapes shared stores
  | outOfFuel =>
      rw [exhausted]
      exact .outOfFuel
  | jump allowed shared stores =>
      rw [pending, pending]
      exact .jump allowed shared stores

/-! ### Frames -/

/-- A function body starts in the same state on both sides. -/
theorem enter_eq (differ : Differ X J W state state') (params : List Identifier)
    (args : List Literal) :
    (state.initcall params args).mkOk = (state'.initcall params args).mkOk := by
  cases differ <;> rfl

/-- The store of the caller comes back, whatever the body has ended in. -/
theorem leave (differ : Differ X J W state state') (final : State) :
    Differ X J W ((final.reviveJump.overwrite? state).setStore state)
      ((final.reviveJump.overwrite? state').setStore state') := by
  cases differ with
  | ok shared stores =>
      cases final with
      | Ok shared store => exact .ok _ stores
      | OutOfFuel => exact .outOfFuel
      | Checkpoint jump => cases jump <;> exact .ok _ stores
  | outOfFuel => exact .outOfFuel
  | jump escapes shared stores => exact .jump escapes shared stores

/-- A loop starts over from the default state if a jump is pending. -/
theorem mkOk (differ : Differ X J W state state')
    (unset : W (fun _ => ⟨0⟩) (fun _ => ⟨0⟩)) : Differ X ∅ W state.mkOk state'.mkOk := by
  cases differ with
  | ok shared stores => exact .ok shared stores
  | outOfFuel => exact .outOfFuel
  | jump escapes shared stores => exact .ok default ⟨fun _ _ => rfl, unset⟩

/-- Reviving a jump leaves none pending. -/
theorem reviveJump (differ : Differ X J W state state') :
    Differ X ∅ W state.reviveJump state'.reviveJump := by
  cases differ with
  | ok shared stores => exact .ok shared stores
  | outOfFuel => exact .outOfFuel
  | @jump kind _ shared _ _ stores => cases kind <;> exact .ok shared stores

/-- The state at the end of a loop gives way to one at its start that is not ordinary. -/
theorem overwrite (differ : Differ X J W state state') {before before' : State}
    (start : Differ X J W before before') :
    Differ X J W (state.overwrite? before) (state'.overwrite? before') := by
  cases start with
  | ok shared stores => exact differ
  | outOfFuel => exact .outOfFuel
  | jump escapes shared stores => exact .jump escapes shared stores

end Differ

theorem HaltsDiffer.widen {Y : Set Identifier} (more : X ⊆ Y) {exception exception' : Exception}
    (halts : HaltsDiffer X exception exception') : HaltsDiffer Y exception exception' := by
  cases halts with
  | same => exact .same exception
  | halt differ value =>
      exact .halt (differ.confine fun _ _ _ id outside => absurd (more id.2) outside) value

end YulGasRules.Yul
