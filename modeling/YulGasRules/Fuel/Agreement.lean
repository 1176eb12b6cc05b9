import YulGasRules.Fuel.Judgment

/-!
# Agreement of fuel-indexed computations

Two computations agree eventually on a precondition if, beyond one threshold for
all its states, they have the same outcome.  The combinators preserve agreement.
A part that two computations share may establish the precondition under which the
parts that follow it agree.
-/

namespace YulGasRules.Fuel

open Filter (atTop)

universe u v w x

variable {ε : Type u} {σ τ : Type v} {α : Type w} {β : Type x}

/-- Beyond one threshold for all states in `P`, both computations have the same outcome. -/
def EventuallyAgree (P : σ → Prop) (left right : Comp ε σ α) : Prop :=
  ∃ threshold, ∀ fuel, threshold ≤ fuel → ∀ state, P state →
    left fuel state = right fuel state

section Rules

variable {P P' : σ → Prop} {P₁ : τ → Prop} {E : ε → Prop} {left right : Comp ε σ α}

/-- Agreement is a statement about all large amounts of fuel. -/
theorem eventuallyAgree_iff : EventuallyAgree P left right ↔
    ∀ᶠ fuel in atTop, ∀ state, P state → left fuel state = right fuel state :=
  Filter.eventually_atTop.symm

namespace EventuallyAgree

theorem refl (P : σ → Prop) (comp : Comp ε σ α) : EventuallyAgree P comp comp :=
  eventuallyAgree_iff.mpr (.of_forall fun _ _ _ => rfl)

/-- Computations that agree on more states agree on fewer. -/
theorem mono (agree : EventuallyAgree P left right)
    (precondition : ∀ state, P' state → P state) : EventuallyAgree P' left right := by
  rw [eventuallyAgree_iff] at *
  filter_upwards [agree] with fuel same state holds
  exact same state (precondition state holds)

theorem tick {empty : ε} (agree : EventuallyAgree P left right) :
    EventuallyAgree P (Fuel.tick empty left) (Fuel.tick empty right) := by
  rw [eventuallyAgree_iff] at *
  rw [← Filter.map_add_atTop_eq_nat 1, Filter.eventually_map]
  exact agree

/-- A shared first part establishes the precondition of the second parts. -/
theorem seq {first : Comp ε σ τ} {second second' : Comp ε τ α}
    (head : Eventually P first P₁ E) (rest : EventuallyAgree P₁ second second') :
    EventuallyAgree P (Fuel.seq first second) (Fuel.seq first second') := by
  rw [eventuallyAgree_iff] at *
  rw [eventually_iff] at head
  filter_upwards [head, rest] with fuel ends same state holds
  have after := ends state holds
  simp only [Fuel.seq]
  cases outcome : first fuel state with
  | error exception => rfl
  | ok value =>
      rw [outcome] at after
      exact same value after

/-- What follows may be anything if the heads agree. -/
theorem seq_head {first first' : Comp ε σ τ} (agree : EventuallyAgree P first first')
    (second : Comp ε τ α) :
    EventuallyAgree P (Fuel.seq first second) (Fuel.seq first' second) := by
  rw [eventuallyAgree_iff] at *
  filter_upwards [agree] with fuel same state holds
  simp only [Fuel.seq, same state holds]

theorem lag (units : Nat) (agree : EventuallyAgree P left right) :
    EventuallyAgree P (Fuel.lag units left) (Fuel.lag units right) := by
  rw [eventuallyAgree_iff] at *
  exact (Filter.tendsto_sub_atTop_nat units).eventually agree

/-- A frame leads to states on which the computations agree. -/
theorem framed {enter : τ → σ} {leave : τ → α → β} (agree : EventuallyAgree P left right)
    (entered : ∀ outer, P₁ outer → P (enter outer)) :
    EventuallyAgree P₁ (Fuel.framed enter leave left) (Fuel.framed enter leave right) := by
  rw [eventuallyAgree_iff] at *
  filter_upwards [agree] with fuel same outer holds
  simp only [Fuel.framed, same (enter outer) (entered outer holds)]

/-- Where the test fails the two sides are the same anyway. -/
theorem branch (test : σ → Bool) (agree : EventuallyAgree P left right)
    (other : Comp ε σ α) :
    EventuallyAgree P (Fuel.branch test left other) (Fuel.branch test right other) := by
  rw [eventuallyAgree_iff] at *
  filter_upwards [agree] with fuel same state holds
  simp only [Fuel.branch, same state holds]

/-- Computations that eventually raise the same exception agree. -/
theorem of_raises {exception : ε}
    (raisesLeft : Eventually P left (fun _ => False) (· = exception))
    (raisesRight : Eventually P right (fun _ => False) (· = exception)) :
    EventuallyAgree P left right := by
  rw [eventuallyAgree_iff]
  rw [eventually_iff] at *
  filter_upwards [raisesLeft, raisesRight] with fuel endsLeft endsRight state holds
  rw [Ends.raises_iff.mp (endsLeft state holds), Ends.raises_iff.mp (endsRight state holds)]

end EventuallyAgree

end Rules

end YulGasRules.Fuel
