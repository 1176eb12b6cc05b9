import Mathlib.Algebra.BigOperators.Group.Finset.Basic
import Mathlib.Data.Finmap

/-!
# Finite maps through insertions

A finite map that evolves keeps its keys.  An evolution says what may become of the
value at an old key and which values may stand at a new key, and insertions evolve the
map as soon as they respect both.

Two finite maps correspond if they have the same keys and related values, and insertions
of related values keep it so.

The total of a finite map adds up a weight of its values.
-/

namespace YulGasRules.Collections

universe u v

variable {Key : Type u} {Value : Type v} [DecidableEq Key]

/-! ## Evolution -/

/-- What may become of values: old ones are kept up to a preorder, and fresh ones stay
fresh. -/
structure Evolution (Value : Type v) where
  kept : Value → Value → Prop
  fresh : Value → Prop
  refl : ∀ value, kept value value
  trans : ∀ first second third, kept first second → kept second third → kept first third
  stays : ∀ first second, fresh first → kept first second → fresh second

namespace Evolution

/-- The values at old keys are kept, and the others are fresh. -/
structure Evolves (evolution : Evolution Value) (before after : Finmap fun _ : Key => Value) :
    Prop where
  old : ∀ {key value}, before.lookup key = some value →
    ∃ value', after.lookup key = some value' ∧ evolution.kept value value'
  new : ∀ {key value'}, before.lookup key = none → after.lookup key = some value' →
    evolution.fresh value'

namespace Evolves

variable {evolution : Evolution Value} {first second third : Finmap fun _ : Key => Value}

theorem refl (map : Finmap fun _ : Key => Value) : evolution.Evolves map map where
  old := fun {_ value} present => ⟨value, present, evolution.refl value⟩
  new := by
    intro key value absent present
    rw [absent] at present
    cases present

/-- An evolution may go on. -/
theorem trans (evolves : evolution.Evolves first second)
    (rest : evolution.Evolves second third) : evolution.Evolves first third where
  old := by
    intro key value present
    rcases evolves.old present with ⟨value', present', keeps⟩
    rcases rest.old present' with ⟨value'', present'', keeps'⟩
    exact ⟨value'', present'', evolution.trans _ _ _ keeps keeps'⟩
  new := by
    intro key value'' absent present''
    cases between : second.lookup key with
    | none => exact rest.new between present''
    | some value' =>
        rcases rest.old between with ⟨value, present, keeps⟩
        rw [present''] at present
        cases present
        exact evolution.stays _ _ (evolves.new absent between) keeps

/-- A fresh value may be inserted at a new key. -/
theorem insert_new {key : Key} {value : Value} (absent : first.lookup key = none)
    (fresh : evolution.fresh value) : evolution.Evolves first (first.insert key value) where
  old := by
    intro other old present
    have distinct : other ≠ key := by
      rintro rfl
      rw [absent] at present
      cases present
    rw [Finmap.lookup_insert_of_ne first distinct]
    exact ⟨old, present, evolution.refl old⟩
  new := by
    intro other new absent' present
    by_cases same : other = key
    · subst same
      rw [Finmap.lookup_insert] at present
      cases present
      exact fresh
    · rw [Finmap.lookup_insert_of_ne first same, absent'] at present
      cases present

/-- A value may be inserted that keeps the one it replaces. -/
theorem insert_old {key : Key} {value value' : Value} (present : first.lookup key = some value)
    (kept : evolution.kept value value') :
    evolution.Evolves first (first.insert key value') where
  old := by
    intro other old present'
    by_cases same : other = key
    · subst same
      rw [present] at present'
      cases present'
      exact ⟨value', Finmap.lookup_insert first, kept⟩
    · rw [Finmap.lookup_insert_of_ne first same]
      exact ⟨old, present', evolution.refl old⟩
  new := by
    intro other new absent present'
    have distinct : other ≠ key := by
      rintro rfl
      rw [present] at absent
      cases absent
    rw [Finmap.lookup_insert_of_ne first distinct, absent] at present'
    cases present'

end Evolves

end Evolution

/-! ## Correspondence -/

section Correspondence

variable {Value' : Type v} {R : Value → Value' → Prop}

/-- The same keys are bound, and to related values. -/
def Corresponds (R : Value → Value' → Prop) (map : Finmap fun _ : Key => Value)
    (map' : Finmap fun _ : Key => Value') : Prop :=
  ∀ key, Option.Rel R (map.lookup key) (map'.lookup key)

namespace Corresponds

variable {map : Finmap fun _ : Key => Value} {map' : Finmap fun _ : Key => Value'}

/-- Maps without keys correspond. -/
theorem empty (R : Value → Value' → Prop) :
    Corresponds R (∅ : Finmap fun _ : Key => Value) (∅ : Finmap fun _ : Key => Value') := by
  intro key
  simp only [Finmap.lookup_empty]
  exact .none

/-- Maps keep corresponding when related values are inserted. -/
theorem insert (corresponds : Corresponds R map map') (key : Key) {value : Value}
    {value' : Value'} (related : R value value') :
    Corresponds R (map.insert key value) (map'.insert key value') := by
  intro other
  by_cases same : other = key
  · subst same
    simp only [Finmap.lookup_insert]
    exact .some related
  · simp only [Finmap.lookup_insert_of_ne _ same]
    exact corresponds other

theorem mono {S : Value → Value' → Prop} (corresponds : Corresponds R map map')
    (weaker : ∀ value value', R value value' → S value value') : Corresponds S map map' := by
  intro key
  have related := corresponds key
  generalize map.lookup key = value, map'.lookup key = value' at related
  cases related with
  | some related => exact .some (weaker _ _ related)
  | none => exact .none

/-- The other way around, the values are related by the flipped relation. -/
theorem symm (corresponds : Corresponds R map map') : Corresponds (flip R) map' map := by
  intro key
  have related := corresponds key
  generalize map.lookup key = value, map'.lookup key = value' at related
  cases related with
  | some related => exact .some related
  | none => exact .none

end Corresponds

end Correspondence

/-! ## Totals -/

section Total

variable (weight : Value → Nat) (map : Finmap fun _ : Key => Value)

/-- The weight at a key, where absent keys weigh nothing. -/
def weightAt (key : Key) : Nat := (map.lookup key).elim 0 weight

/-- The weight of all values. -/
def total : Nat := ∑ key ∈ map.keys, weightAt weight map key

/-- An inserted key is the only new one. -/
theorem keys_insert (key : Key) (value : Value) :
    (map.insert key value).keys = Insert.insert key map.keys := by
  ext other
  rw [Finmap.mem_keys, Finmap.mem_insert, Finset.mem_insert, Finmap.mem_keys]

/-- The total is made up of the weight at one key and the weights at the others. -/
theorem weightAt_add_others (key : Key) :
    weightAt weight map key + ∑ other ∈ map.keys.erase key, weightAt weight map other =
      total weight map := by
  by_cases present : key ∈ map.keys
  · exact Finset.add_sum_erase map.keys _ present
  · have absent : map.lookup key = none := by
      rw [Finmap.lookup_eq_none, ← Finmap.mem_keys]
      exact present
    rw [Finset.erase_eq_of_notMem present, weightAt, absent]
    exact Nat.zero_add _

/-- An insertion changes the total by what it adds and what it replaces. -/
theorem total_insert (key : Key) (value : Value) :
    total weight (map.insert key value) + weightAt weight map key =
      total weight map + weight value := by
  have others : ∑ other ∈ (map.insert key value).keys.erase key,
      weightAt weight (map.insert key value) other =
      ∑ other ∈ map.keys.erase key, weightAt weight map other := by
    rw [keys_insert, Finset.erase_insert_eq_erase]
    apply Finset.sum_congr rfl
    intro other distinct
    rw [weightAt, Finmap.lookup_insert_of_ne map (Finset.ne_of_mem_erase distinct)]
    rfl
  have inserted : weightAt weight (map.insert key value) key = weight value := by
    rw [weightAt, Finmap.lookup_insert]
    rfl
  rw [← weightAt_add_others weight (map.insert key value) key, inserted, others,
    ← weightAt_add_others weight map key]
  omega

end Total

end YulGasRules.Collections
