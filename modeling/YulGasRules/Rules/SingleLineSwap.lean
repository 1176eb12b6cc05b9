import YulGasRules.Rules.Core
import YulGasRules.Yul.Noninterference

/-!
# Replacing an exchange through a temporary by a simultaneous assignment

The exchange `tmp := varA ; varA := varB ; varB := tmp` of two variables is replaced
by the assignment `(varA, varB) := (varB, varA)`, which the compiler lowers to
assignments of its own through fresh temporaries.  Blocks may stand between the
assignments of the original; they come after the whole exchange in the lowered form.

The two programs leave different temporaries behind, so that they are not
observationally equivalent even if nothing surrounds the exchange.  They agree on
everything else.  The same exceptions are raised, and the states at the end have the
same shared part and the same variables, the temporaries apart.  If the program halts
between the assignments, the exchanged variables may differ as well.

The blocks in between must not mention the names of the exchange, and what follows it
must not mention the temporaries.  Neither needs to be straight-line code: loops and
calls of user functions are covered, and so are variables that are not bound.
-/

namespace YulGasRules.Law2

open Yul YulGasRules.Core Fuel

/-! ## The two program forms -/

/-- The reassignment `var := source`. -/
abbrev reassign (var source : Identifier) : Stmt := .Let [var] (some (.Var source))

def tempSwap (tmp varA varB : Identifier) : List Stmt :=
  [reassign tmp varA, reassign varA varB, reassign varB tmp]

def simulSwap (c varA varB : Identifier) : List Stmt :=
  [reassign c varB, reassign varB varA, reassign varA c]

/-- The lowered form that the compiler emits captures both operands. -/
def simulSwapFour (v1 v2 varA varB : Identifier) : List Stmt :=
  [reassign v1 varB, reassign v2 varA, reassign varB v2, reassign varA v1]

/-- The interleaved temporary-based swap. -/
def tempSwapInterleaved (R P Q S : List Stmt) (tmp varA varB : Identifier) : List Stmt :=
  R ++ [reassign tmp varA] ++ P ++ [reassign varA varB] ++ Q ++ [reassign varB tmp] ++ S

/-- The interleaved form of a lowered swap. -/
def swapInterleaved (swap R P Q S : List Stmt) : List Stmt :=
  R ++ swap ++ P ++ Q ++ S

def simulSwapInterleaved (R P Q S : List Stmt) (c varA varB : Identifier) : List Stmt :=
  swapInterleaved (simulSwap c varA varB) R P Q S

def simulSwapFourInterleaved (R P Q S : List Stmt) (v1 v2 varA varB : Identifier) :
    List Stmt :=
  swapInterleaved (simulSwapFour v1 v2 varA varB) R P Q S

/-! ## Reassignments -/

section Reassign

variable [FFI]

theorem meaning_reassign (var source : Identifier) (rest : List Stmt) (s : Yul.State) :
    stmtMeaning none (.Block (reassign var source :: rest)) s =
      stmtMeaning none (.Block rest) (s.insert var s[source]!) := by
  rw [stmtMeaning_block_cons, stmtMeaning_let_var]
  rfl

theorem meaning_reassign_ok (var source : Identifier) (rest : List Stmt)
    (shared : SharedState .Yul) (store : VarStore) :
    stmtMeaning none (.Block (reassign var source :: rest)) (.Ok shared store) =
      stmtMeaning none (.Block rest) (.Ok shared (store.insert var (store.value source))) := by
  rw [meaning_reassign, State.getElem!_ok]
  rfl

theorem meaning_nil (s : Yul.State) : stmtMeaning none (.Block []) s = .ok s := by
  rw [stmtMeaning_block_nil]

/-- From an ordinary state the block exchanges the two variables, and otherwise writes to
`T` alone. -/
def Exchanges (swap : List Stmt) (T : Set Identifier) (varA varB : Identifier) : Prop :=
  ∀ shared store, ∃ store',
    stmtMeaning none (.Block swap) (.Ok shared store) = .ok (.Ok shared store') ∧
      store'.value varA = store.value varB ∧ store'.value varB = store.value varA ∧
      ∀ id, id ∉ insert varA (insert varB T) → store'.value id = store.value id

/-- A state that is out of fuel is left alone. -/
def KeepsExhausted (swap : List Stmt) : Prop :=
  stmtMeaning none (.Block swap) .OutOfFuel = .ok .OutOfFuel

theorem tempSwap_exchanges {tmp varA varB : Identifier} (hAB : varA ≠ varB)
    (hTA : tmp ≠ varA) (hTB : tmp ≠ varB) :
    Exchanges (tempSwap tmp varA varB) {tmp} varA varB := by
  intro shared store
  simp only [tempSwap, meaning_reassign_ok, meaning_nil]
  refine ⟨_, rfl, ?_, ?_, ?_⟩
  · simp [hAB, hTB.symm]
  · simp [hTA]
  · intro id outside
    simp only [Set.mem_insert_iff, Set.mem_singleton_iff, not_or] at outside
    simp [outside]

theorem simulSwap_exchanges {c varA varB : Identifier} (hAB : varA ≠ varB)
    (hCA : c ≠ varA) (hCB : c ≠ varB) : Exchanges (simulSwap c varA varB) {c} varA varB := by
  intro shared store
  simp only [simulSwap, meaning_reassign_ok, meaning_nil]
  refine ⟨_, rfl, ?_, ?_, ?_⟩
  · simp [hCB]
  · simp [hAB.symm, hCA.symm]
  · intro id outside
    simp only [Set.mem_insert_iff, Set.mem_singleton_iff, not_or] at outside
    simp [outside]

theorem simulSwap_keepsExhausted (c varA varB : Identifier) :
    KeepsExhausted (simulSwap c varA varB) := by
  simp only [KeepsExhausted, simulSwap, meaning_reassign, meaning_nil, State.insert]

theorem simulSwapFour_exchanges {v1 v2 varA varB : Identifier} (hAB : varA ≠ varB)
    (h1A : v1 ≠ varA) (h1B : v1 ≠ varB) (h12 : v1 ≠ v2) :
    Exchanges (simulSwapFour v1 v2 varA varB) {v1, v2} varA varB := by
  intro shared store
  simp only [simulSwapFour, meaning_reassign_ok, meaning_nil]
  refine ⟨_, rfl, ?_, ?_, ?_⟩
  · simp [h1B, h12]
  · simp [hAB.symm, h1A.symm]
  · intro id outside
    simp only [Set.mem_insert_iff, Set.mem_singleton_iff, not_or] at outside
    simp [outside]

theorem simulSwapFour_keepsExhausted (v1 v2 varA varB : Identifier) :
    KeepsExhausted (simulSwapFour v1 v2 varA varB) := by
  simp only [KeepsExhausted, simulSwapFour, meaning_reassign, meaning_nil, State.insert]

end Reassign

/-! ## Where the exchanged values are found -/

section Located

variable {X : Set Identifier}

/-- What the right-hand side holds in `varA` and `varB` is found in `placeA` and
`placeB` on the left-hand side. -/
def Located (varA varB placeA placeB : X) : StrangerRelation X :=
  fun held held' => held placeA = held' varA ∧ held placeB = held' varB

variable {varA varB placeA placeB : X} {s s' : Yul.State}

theorem located_unset : Located varA varB placeA placeB (fun _ => ⟨0⟩) (fun _ => ⟨0⟩) :=
  ⟨rfl, rfl⟩

/-- A reassignment on the left-hand side moves the value of `varA`. -/
theorem move_first {place : X} (distinct : placeB ≠ place)
    (differ : Differ X ∅ (Located varA varB placeA placeB) s s') :
    Differ X ∅ (Located varA varB place placeB) (s.insert place s[placeA.val]!) s' := by
  apply differ.copy_left
  intro held held' located
  constructor
  · rw [Function.update_self]
    exact located.1
  · rw [Function.update_of_ne distinct]
    exact located.2

theorem move_second {place : X} (distinct : placeA ≠ place)
    (differ : Differ X ∅ (Located varA varB placeA placeB) s s') :
    Differ X ∅ (Located varA varB placeA place) (s.insert place s[placeB.val]!) s' := by
  apply differ.copy_left
  intro held held' located
  constructor
  · rw [Function.update_of_ne distinct]
    exact located.1
  · rw [Function.update_self]
    exact located.2

/-- The first assignment through the temporary against the whole exchange. -/
theorem exchange_differ {tmp : X} {shared : SharedState .Yul} {store exchanged : VarStore}
    (hTB : tmp ≠ varB) (atA : exchanged.value varA = store.value varB)
    (atB : exchanged.value varB = store.value varA)
    (elsewhere : ∀ id, id ∉ X → exchanged.value id = store.value id) :
    Differ X ∅ (Located varA varB varB tmp)
      (.Ok shared (store.insert tmp (store.value varA))) (.Ok shared exchanged) := by
  refine .ok shared ⟨?_, ?_, ?_⟩
  · intro id outside
    have distinct : id ≠ tmp := fun same => outside (same ▸ tmp.2)
    rw [VarStore.value_insert_of_ne store distinct, elsewhere id outside]
  · show VarStore.value _ _ = _
    rw [VarStore.value_insert_of_ne store (Subtype.coe_ne_coe.mpr hTB.symm)]
    exact atA.symm
  · show VarStore.value _ _ = _
    rw [VarStore.value_insert_self]
    exact atB.symm

end Located

/-! ## Outcomes that differ in temporaries -/

/-- The outcomes differ in the variables in `Y` at most, or both are halts. -/
abbrev SameUpTo (Y X : Set Identifier) :
    Except Exception Yul.State → Except Exception Yul.State → Prop :=
  Related (Differ Y Set.univ fun _ _ => True) (HaltsDiffer X)

theorem observe_differ {X Y : Set Identifier} (lessX : Y ⊆ X) (s : Yul.State)
    {outcome outcome' : Except Exception Yul.State} (same : SameUpTo Y X outcome outcome') :
    Differ X Set.univ (fun _ _ => True) (observe s outcome) (observe s outcome') := by
  have refl (s : Yul.State) : Differ X Set.univ (fun _ _ => True) s s :=
    .refl (fun _ => trivial) s
  cases same with
  | ok differ => exact differ.confine fun _ _ _ id outside => absurd (lessX id.2) outside
  | error exceptions =>
      cases exceptions with
      | same exception => exact refl _
      | halt differ value => exact differ

/-! ## The law -/

section Law

variable [FFI]

/-- The block performs no contract calls, lets no jump escape and does not mention `X`. -/
abbrev Secluded (X : Set Identifier) (stmts : List Stmt) : Prop :=
  AvoidsStmt X (fun prim => prim ∉ contractCalls) ∅ (.Block stmts)

/-- The block does not mention `X`, and is free otherwise. -/
abbrev Ignores (X : Set Identifier) (stmts : List Stmt) : Prop :=
  AvoidsStmt X (fun _ => True) Set.univ (.Block stmts)

variable {X Y T : Set Identifier} {tmp varA varB : X} {swap R P Q S : List Stmt}

/-- The second half of the exchange through the temporary. -/
theorem halfway_related (hAB : varA ≠ varB) (hTA : tmp ≠ varA)
    (reduced : ∀ id ∈ X, id ∉ Y → id = varA ∨ id = varB) (lessX : Y ⊆ X)
    (hQ : Secluded X Q) (hS : Ignores Y S) {s s' : Yul.State}
    (differ : Differ X ∅ (Located varA varB varB tmp) s s') :
    SameUpTo Y X
      (stmtMeaning none
        (.Block (reassign varA varB :: (Q ++ (reassign varB tmp :: S)))) s)
      (stmtMeaning none (.Block (Q ++ S)) s') := by
  rw [meaning_reassign]
  refine stmtMeaning_block_append_related located_unset none
    (fun _ own => primIndifferent_of_own located_unset own) hQ ?_ (move_first hTA differ)
  intro after after' differ
  rw [meaning_reassign]
  have agree : Differ Y Set.univ (fun _ _ => True)
      (after.insert varB after[tmp.val]!) after' := by
    refine ((move_second hAB differ).confine ?_).mono (Set.subset_univ _) fun _ _ => id
    intro held held' located id outside
    rcases reduced id id.2 outside with same | same
    · rw [Subtype.ext same]
      exact located.1
    · rw [Subtype.ext same]
      exact located.2
  have rest := stmtMeaning_related trivial none
    (fun prim _ => primIndifferent_of_reflexive (fun _ => trivial) prim) hS agree
  exact rest.mono (fun _ _ => id) fun _ _ => HaltsDiffer.widen lessX

/-- The two programs after a shared prefix. -/
theorem fragment_related (exchanges : Exchanges swap T varA varB)
    (exhausted : KeepsExhausted swap) (hAB : varA ≠ varB) (hTA : tmp ≠ varA)
    (hTB : tmp ≠ varB) (written : insert varA.val (insert varB.val T) ⊆ X)
    (reduced : ∀ id ∈ X, id ∉ Y → id = varA ∨ id = varB) (lessX : Y ⊆ X)
    (hP : Secluded X P) (hQ : Secluded X Q) (hS : Ignores Y S) {s : Yul.State}
    (ordinary : ∀ jump, s ≠ .Checkpoint jump) :
    SameUpTo Y X
      (stmtMeaning none (.Block (reassign tmp varA ::
        (P ++ (reassign varA varB :: (Q ++ (reassign varB tmp :: S)))))) s)
      (stmtMeaning none (.Block (swap ++ (P ++ (Q ++ S)))) s) := by
  have onwards {after after' : Yul.State}
      (differ : Differ X ∅ (Located varA varB varB tmp) after after') :=
    stmtMeaning_block_append_related located_unset none
      (fun _ own => primIndifferent_of_own located_unset own) hP
      (fun _ _ => halfway_related hAB hTA reduced lessX hQ hS) differ
  rw [stmtMeaning_block_append none swap]
  cases s with
  | Ok shared store =>
      obtain ⟨exchanged, ends, atA, atB, elsewhere⟩ := exchanges shared store
      rw [meaning_reassign_ok]
      simp only [ends]
      refine onwards (exchange_differ hTB atA atB ?_)
      exact fun id outside => elsewhere id fun member => outside (written member)
  | OutOfFuel =>
      rw [meaning_reassign]
      rw [KeepsExhausted] at exhausted
      simp only [exhausted]
      exact onwards .outOfFuel
  | Checkpoint jump => exact absurd rfl (ordinary jump)

end Law

/-- The names that an exchange touches. -/
def names (T : Set Identifier) (tmp varA varB : Identifier) : Set Identifier :=
  insert tmp (insert varA (insert varB T))

theorem insert_subset_names (T : Set Identifier) (tmp varA varB : Identifier) :
    insert tmp T ⊆ names T tmp varA varB := by
  intro id
  simp only [names, Set.mem_insert_iff]
  tauto

section Statement

variable [FFI] {T : Set Identifier} {tmp varA varB : Identifier} {swap R P Q S : List Stmt}

/-- The exchange through `tmp` may be replaced by one that writes to `T` otherwise, and
that comes first.  Only the temporaries are different then, unless the program halts
between the assignments. -/
theorem single_line_swap_related (exchanges : Exchanges swap T varA varB)
    (exhausted : KeepsExhausted swap) (hAB : varA ≠ varB) (hTA : tmp ≠ varA)
    (hTB : tmp ≠ varB) (hP : Secluded (names T tmp varA varB) P)
    (hQ : Secluded (names T tmp varA varB) Q) (hS : Ignores (insert tmp T) S) {s : Yul.State}
    (noJump : ∀ jump, stmtMeaning none (.Block R) s ≠ .ok (.Checkpoint jump)) :
    SameUpTo (insert tmp T) (names T tmp varA varB)
      (stmtMeaning none (.Block (tempSwapInterleaved R P Q S tmp varA varB)) s)
      (stmtMeaning none (.Block (swapInterleaved swap R P Q S)) s) := by
  let X := names T tmp varA varB
  let tmp' : X := ⟨tmp, by simp [X, names]⟩
  let varA' : X := ⟨varA, by simp [X, names]⟩
  let varB' : X := ⟨varB, by simp [X, names]⟩
  have distinctAB : varA' ≠ varB' := Subtype.coe_ne_coe.mp hAB
  have distinctTA : tmp' ≠ varA' := Subtype.coe_ne_coe.mp hTA
  have distinctTB : tmp' ≠ varB' := Subtype.coe_ne_coe.mp hTB
  have reduced : ∀ id ∈ X, id ∉ insert tmp T → id = varA' ∨ id = varB' := by
    intro id inside outside
    simp only [X, names, Set.mem_insert_iff] at inside outside
    tauto
  have lessX := insert_subset_names T tmp varA varB
  simp only [tempSwapInterleaved, swapInterleaved, List.append_assoc, List.singleton_append]
  rw [stmtMeaning_block_append none R, stmtMeaning_block_append none R]
  dsimp only
  cases ends : stmtMeaning none (.Block R) s with
  | error exception => exact .error (.same exception)
  | ok after =>
      refine fragment_related exchanges exhausted distinctAB distinctTA distinctTB
        (Set.subset_insert _ _) reduced lessX hP hQ hS ?_
      intro jump pending
      exact noJump jump (pending ▸ ends)

/-- Code from which no jump escapes ends without one, unless one is pending before. -/
theorem noJump_of_secluded (hR : Secluded ∅ R) (shared : SharedState .Yul) (store : VarStore)
    (jump : Jump) :
    stmtMeaning none (.Block R) (.Ok shared store) ≠ .ok (.Checkpoint jump) := by
  intro ends
  have same : Differ ∅ ∅ (fun _ _ => True) (.Ok shared store) (.Ok shared store) :=
    .ok shared ⟨fun _ _ => rfl, trivial⟩
  have related := stmtMeaning_related trivial none
    (fun _ own => primIndifferent_of_own trivial own) hR same
  rw [ends] at related
  cases related with
  | ok differ => exact differ.not_pending jump rfl

/-! ## What the programs show -/

/-- Beyond some fuel, the two blocks show from `s` the same up to variables in `X`.  If
they end normally, only variables in `Y` differ, and if not, they raise the same exception
or both halt. -/
def EventuallyObsEquivUpTo (Y X : Set Identifier) (stmts₁ stmts₂ : List Stmt)
    (s : Yul.State) : Prop :=
  ∃ N, ∀ n, N ≤ n →
    Differ X Set.univ (fun _ _ => True) (execTopLevel n (.Block stmts₁) s)
        (execTopLevel n (.Block stmts₂) s) ∧
      SameUpTo Y X (exec n (.Block stmts₁) none s) (exec n (.Block stmts₂) none s)

theorem eventuallyObsEquivUpTo_of_sameUpTo {X Y : Set Identifier} (lessX : Y ⊆ X)
    {stmts₁ stmts₂ : List Stmt} {s : Yul.State}
    (same : SameUpTo Y X (stmtMeaning none (.Block stmts₁) s)
      (stmtMeaning none (.Block stmts₂) s)) :
    EventuallyObsEquivUpTo Y X stmts₁ stmts₂ s := by
  apply Filter.eventually_atTop.mp
  filter_upwards [eventually_exec (.Block stmts₁) s, eventually_exec (.Block stmts₂) s]
    with n means₁ means₂
  rw [execTopLevel_eq_observe, execTopLevel_eq_observe, means₁, means₂]
  exact ⟨observe_differ lessX s same, same⟩

/-- Whatever the programs show, the parts other than the variables are the same. -/
theorem EventuallyObsEquivUpTo.toSharedState_eq {X Y : Set Identifier}
    {stmts₁ stmts₂ : List Stmt} {s : Yul.State}
    (same : EventuallyObsEquivUpTo Y X stmts₁ stmts₂ s) :
    ∃ N, ∀ n, N ≤ n → (execTopLevel n (.Block stmts₁) s).toSharedState =
      (execTopLevel n (.Block stmts₂) s).toSharedState := by
  obtain ⟨N, beyond⟩ := same
  exact ⟨N, fun n enough => (beyond n enough).1.toSharedState_eq⟩

/-- The exchanged variables agree if the programs end normally. -/
theorem single_line_swap_equiv (exchanges : Exchanges swap T varA varB)
    (exhausted : KeepsExhausted swap) (hAB : varA ≠ varB) (hTA : tmp ≠ varA)
    (hTB : tmp ≠ varB) (hR : Secluded ∅ R) (hP : Secluded (names T tmp varA varB) P)
    (hQ : Secluded (names T tmp varA varB) Q) (hS : Ignores (insert tmp T) S)
    (shared : SharedState .Yul) (store : VarStore) :
    EventuallyObsEquivUpTo (insert tmp T) (names T tmp varA varB)
      (tempSwapInterleaved R P Q S tmp varA varB) (swapInterleaved swap R P Q S)
      (.Ok shared store) := by
  apply eventuallyObsEquivUpTo_of_sameUpTo (insert_subset_names T tmp varA varB)
  exact single_line_swap_related exchanges exhausted hAB hTA hTB hP hQ hS
    (noJump_of_secluded hR shared store)

theorem single_line_swap_equiv_general {c : Identifier} (hAB : varA ≠ varB) (hTA : tmp ≠ varA)
    (hTB : tmp ≠ varB) (hCA : c ≠ varA) (hCB : c ≠ varB) (hR : Secluded ∅ R)
    (hP : Secluded (names {c} tmp varA varB) P) (hQ : Secluded (names {c} tmp varA varB) Q)
    (hS : Ignores {tmp, c} S) (shared : SharedState .Yul) (store : VarStore) :
    EventuallyObsEquivUpTo {tmp, c} (names {c} tmp varA varB)
      (tempSwapInterleaved R P Q S tmp varA varB)
      (simulSwapInterleaved R P Q S c varA varB) (.Ok shared store) :=
  single_line_swap_equiv (simulSwap_exchanges hAB hCA hCB) (simulSwap_keepsExhausted c varA varB)
    hAB hTA hTB hR hP hQ hS shared store

/-- `sstore(0, n)` -/
def storeCount : List Stmt := [.ExprStmtCall (.Call (.inl .SSTORE) [.Lit ⟨0⟩, .Var "n"])]

/-- `sstore(a, b)` -/
def storePair : List Stmt := [.ExprStmtCall (.Call (.inl .SSTORE) [.Var "a", .Var "b"])]

omit [FFI] in
theorem storeCount_secluded : Secluded (names {"c"} "t" "a" "b") storeCount := by
  have outside : "n" ∉ names {"c"} "t" "a" "b" := by simp [names]
  refine .block (List.forall_mem_singleton.mpr (.perform (.prim (by decide) ?_)))
  exact List.forall_mem_cons.mpr ⟨.lit _, List.forall_mem_singleton.mpr (.var outside)⟩

omit [FFI] in
theorem storePair_ignores : Ignores {"t", "c"} storePair := by
  refine .block (List.forall_mem_singleton.mpr (.perform (.prim trivial ?_)))
  exact List.forall_mem_cons.mpr
    ⟨.var (by simp), List.forall_mem_singleton.mpr (.var (by simp))⟩

/-- A contract that may write runs in a fresh account. -/
def writable : SharedState .Yul :=
  { (default : SharedState .Yul) with
    accountMap := (∅ : AccountMap .Yul).insert default default
    executionEnv := { (default : ExecutionEnv .Yul) with perm := true } }

/-- The values 1 and 2 are to be exchanged, and 3 to be stored in between. -/
def boundStore : VarStore :=
  ((((Finmap.insert "a" ⟨1⟩ ∅).insert "b" ⟨2⟩).insert "n" ⟨3⟩).insert "t" ⟨0⟩).insert "c" ⟨0⟩

omit [FFI] in
/-- The count is stored between the assignments, and the exchanged pair after them. -/
theorem single_line_swap_equiv_stores :
    (∃ shared store,
      @exec ⟨fun _ => ByteArray.empty⟩ 20
          (.Block (tempSwapInterleaved [] storeCount [] storePair "t" "a" "b")) none
          (.Ok writable boundStore) = .ok (.Ok shared store) ∧
        (shared.accountMap.lookup default).bind (·.storage.lookup ⟨0⟩) = some ⟨3⟩ ∧
        (shared.accountMap.lookup default).bind (·.storage.lookup ⟨2⟩) = some ⟨1⟩) ∧
    @EventuallyObsEquivUpTo ⟨fun _ => ByteArray.empty⟩ {"t", "c"} (names {"c"} "t" "a" "b")
      (tempSwapInterleaved [] storeCount [] storePair "t" "a" "b")
      (simulSwapInterleaved [] storeCount [] storePair "c" "a" "b")
      (.Ok writable boundStore) :=
  ⟨⟨_, _, rfl, by decide, by decide⟩,
    @single_line_swap_equiv_general ⟨fun _ => ByteArray.empty⟩ "t" "a" "b" [] storeCount []
      storePair "c" (by decide) (by decide) (by decide) (by decide) (by decide)
      (.block fun _ => nofun) storeCount_secluded (.block fun _ => nofun) storePair_ignores
      writable boundStore⟩

theorem single_line_swap_equiv_four {v1 v2 : Identifier} (hAB : varA ≠ varB) (hTA : tmp ≠ varA)
    (hTB : tmp ≠ varB) (h1A : v1 ≠ varA) (h1B : v1 ≠ varB) (h12 : v1 ≠ v2)
    (hR : Secluded ∅ R) (hP : Secluded (names {v1, v2} tmp varA varB) P)
    (hQ : Secluded (names {v1, v2} tmp varA varB) Q) (hS : Ignores {tmp, v1, v2} S)
    (shared : SharedState .Yul) (store : VarStore) :
    EventuallyObsEquivUpTo {tmp, v1, v2} (names {v1, v2} tmp varA varB)
      (tempSwapInterleaved R P Q S tmp varA varB)
      (simulSwapFourInterleaved R P Q S v1 v2 varA varB) (.Ok shared store) :=
  single_line_swap_equiv (simulSwapFour_exchanges hAB h1A h1B h12)
    (simulSwapFour_keepsExhausted v1 v2 varA varB) hAB hTA hTB hR hP hQ hS shared store

/-- Consecutive assignments are the case without blocks in between. -/
theorem single_line_swap_equiv_four_nil {v1 v2 : Identifier} (hAB : varA ≠ varB)
    (hTA : tmp ≠ varA) (hTB : tmp ≠ varB) (h1A : v1 ≠ varA) (h1B : v1 ≠ varB) (h12 : v1 ≠ v2)
    (hR : Secluded ∅ R) (hS : Ignores {tmp, v1, v2} S) (shared : SharedState .Yul)
    (store : VarStore) :
    EventuallyObsEquivUpTo {tmp, v1, v2} (names {v1, v2} tmp varA varB)
      (R ++ tempSwap tmp varA varB ++ S) (R ++ simulSwapFour v1 v2 varA varB ++ S)
      (.Ok shared store) := by
  have nothing : Secluded (names {v1, v2} tmp varA varB) [] := .block fun _ => nofun
  have equiv := single_line_swap_equiv_four hAB hTA hTB h1A h1B h12 hR nothing nothing hS
    shared store
  simpa only [tempSwapInterleaved, simulSwapFourInterleaved, swapInterleaved, tempSwap,
    List.append_nil, List.append_assoc, List.cons_append, List.nil_append] using equiv

/-- The programs show different temporaries even if nothing surrounds the exchange. -/
theorem not_eventuallyObsEquiv_swap (exchanges : Exchanges swap T varA varB)
    (hTA : tmp ≠ varA) (hTB : tmp ≠ varB) (fresh : tmp ∉ T) :
    ¬EventuallyObsEquiv (tempSwap tmp varA varB) swap := by
  intro same
  let store : VarStore := Finmap.insert varA ⟨1⟩ ∅
  have observed := eventuallyObsEquiv_iff.mp same (.Ok default store)
  obtain ⟨after, ends, _, _, elsewhere⟩ := exchanges default store
  simp only [ends, tempSwap, meaning_reassign_ok, meaning_nil, observe] at observed
  have stores := (State.Ok.inj observed).2
  have kept : after.value tmp = ⟨0⟩ := by
    rw [elsewhere tmp (by simp [hTA, hTB, fresh]), VarStore.value_insert_of_ne _ hTA]
    rfl
  have moved : after.value tmp = ⟨1⟩ := by
    rw [← stores]
    simp [hTA, hTB, store]
  have distinct : (⟨1⟩ : Literal) ≠ ⟨0⟩ := by decide
  exact distinct (moved.symm.trans kept)

omit [FFI] in
theorem not_eventuallyObsEquiv_simulSwap :
    ¬@EventuallyObsEquiv ⟨fun _ => ByteArray.empty⟩ (tempSwap "t" "a" "b")
      (simulSwap "c" "a" "b") :=
  @not_eventuallyObsEquiv_swap ⟨fun _ => ByteArray.empty⟩ {"c"} "t" "a" "b"
    (simulSwap "c" "a" "b")
    (@simulSwap_exchanges ⟨fun _ => ByteArray.empty⟩ "c" "a" "b" (by decide) (by decide)
      (by decide))
    (by decide) (by decide) (by simp)

end Statement

end YulGasRules.Law2
