import YulGasRules.Fuel.Approximation

/-!
# The meaning of a growing computation

From every state a growing computation settles on one outcome: beyond some amount of
fuel the outcome does not change any more.  This outcome is the meaning of the
computation, with exhaustion as the meaning where it gives up at every amount.

Fuel plays no part in a meaning.  Spending fuel does not change it, and the meaning of
a sequence is the sequence of the meanings.
-/

namespace YulGasRules.Fuel

open Filter (atTop)

universe u v w x

variable {ε : Type u} {σ τ : Type v} {α : Type w} {β : Type x}

/-! ## Settling on an outcome -/

/-- From `state` the computation has `outcome` with all fuel beyond a threshold. -/
def Settles (comp : Comp ε σ α) (state : σ) (outcome : Except ε α) : Prop :=
  ∃ threshold, ∀ fuel, threshold ≤ fuel → comp fuel state = outcome

section Rules

variable {empty : ε} {comp other : Comp ε σ α} {state : σ} {outcome outcome' : Except ε α}

/-- To settle is a matter of all large amounts of fuel. -/
theorem settles_iff : Settles comp state outcome ↔ ∀ᶠ fuel in atTop, comp fuel state = outcome :=
  Filter.eventually_atTop.symm

namespace Settles

/-- A computation settles on one outcome. -/
theorem unique (settles : Settles comp state outcome) (settles' : Settles comp state outcome') :
    outcome = outcome' := by
  rw [settles_iff] at *
  obtain ⟨fuel, same, same'⟩ := (settles.and settles').exists
  rw [← same, same']

/-- An outcome that does not depend on the fuel is settled on. -/
theorem const (outcomes : σ → Except ε α) (state : σ) :
    Settles (fun _ => outcomes) state (outcomes state) :=
  settles_iff.mpr (.of_forall fun _ => rfl)

theorem tick (settles : Settles comp state outcome) :
    Settles (Fuel.tick empty comp) state outcome := by
  rw [settles_iff] at *
  rw [← Filter.map_add_atTop_eq_nat 1, Filter.eventually_map]
  exact settles

theorem lag (units : Nat) (settles : Settles comp state outcome) :
    Settles (Fuel.lag units comp) state outcome := by
  rw [settles_iff] at *
  exact (Filter.tendsto_sub_atTop_nat units).eventually settles

/-- A sequence settles once both parts have. -/
theorem seq {first : Comp ε σ τ} {second : Comp ε τ α} {middle : Except ε τ}
    {last : τ → Except ε α} (head : Settles first state middle)
    (rest : ∀ value, Settles second value (last value)) :
    Settles (Fuel.seq first second) state (middle.bind last) := by
  rw [settles_iff] at *
  cases middle with
  | error exception =>
      filter_upwards [head] with fuel raises
      rw [Fuel.seq, raises]
      rfl
  | ok value =>
      filter_upwards [head, settles_iff.mp (rest value)] with fuel ends same
      rw [Fuel.seq, ends]
      exact same

theorem framed {enter : τ → σ} {leave : τ → α → β} {outer : τ}
    (settles : Settles comp (enter outer) outcome) :
    Settles (Fuel.framed enter leave comp) outer (outcome.map (leave outer)) := by
  rw [settles_iff] at *
  filter_upwards [settles] with fuel same
  rw [Fuel.framed, same]

theorem branch (test : σ → Bool) (settles : Settles comp state outcome)
    (otherwise : Settles other state outcome') :
    Settles (Fuel.branch test comp other) state (if test state then outcome else outcome') := by
  rw [settles_iff] at *
  filter_upwards [settles, otherwise] with fuel same same'
  rw [Fuel.branch, same, same']

end Settles

end Rules

/-- A growing computation settles on its first outcome, or gives up with any fuel. -/
theorem Growing.exists_settles {empty : ε} {comp : Comp ε σ α} (growing : Growing empty comp)
    (state : σ) : ∃ outcome, Settles comp state outcome := by
  by_cases final : ∃ fuel, comp fuel state ≠ .error empty
  · rcases final with ⟨fuel, final⟩
    use comp fuel state, fuel
    intro more enough
    exact ((growing.approximates_of_le enough state).eq_of_ne final).symm
  · use .error empty, 0
    intro fuel _
    exact not_not.mp fun here => final ⟨fuel, here⟩

/-! ## The meaning -/

open Classical in
/-- The outcome that the computation settles on. -/
noncomputable def meaning (empty : ε) (comp : Comp ε σ α) (state : σ) : Except ε α :=
  if settles : ∃ outcome, Settles comp state outcome then settles.choose else .error empty

/-- The outcome that is settled on is the meaning. -/
theorem Settles.meaning_eq {empty : ε} {comp : Comp ε σ α} {state : σ} {outcome : Except ε α}
    (settles : Settles comp state outcome) : meaning empty comp state = outcome := by
  have exist : ∃ outcome, Settles comp state outcome := ⟨outcome, settles⟩
  rw [meaning, dif_pos exist]
  exact exist.choose_spec.unique settles

namespace Growing

variable {empty : ε} {comp other : Comp ε σ α}

/-- A growing computation settles on its meaning. -/
theorem settles_meaning (growing : Growing empty comp) (state : σ) :
    Settles comp state (meaning empty comp state) := by
  obtain ⟨outcome, settles⟩ := growing.exists_settles state
  rw [settles.meaning_eq]
  exact settles

/-- What a computation eventually does is what it means. -/
theorem ends_meaning {P : σ → Prop} {Q : α → Prop} {E : ε → Prop}
    (growing : Growing empty comp) (eventually : Eventually P comp Q E) {state : σ}
    (holds : P state) : Ends Q E (meaning empty comp state) := by
  rw [eventually_iff] at eventually
  have settles := settles_iff.mp (growing.settles_meaning state)
  rcases (eventually.and settles).exists with ⟨fuel, ends, means⟩
  rw [← means]
  exact ends state holds

/-- With any fuel, the outcome is the one that is meant, unless the computation gives up. -/
theorem approximates_meaning (growing : Growing empty comp) (fuel : Nat) (state : σ) :
    Approximates empty (comp fuel state) (meaning empty comp state) := by
  rcases growing.settles_meaning state with ⟨threshold, means⟩
  rw [← means _ (Nat.le_max_right fuel threshold)]
  exact growing.approximates_of_le (Nat.le_max_left fuel threshold) state

/-! ### Meanings of the combinators -/

/-- The fuel that is spent has no part in the meaning. -/
theorem meaning_tick (growing : Growing empty comp) :
    meaning empty (Fuel.tick empty comp) = meaning empty comp := by
  funext state
  exact (growing.settles_meaning state).tick.meaning_eq

theorem meaning_lag (growing : Growing empty comp) (units : Nat) :
    meaning empty (Fuel.lag units comp) = meaning empty comp := by
  funext state
  exact ((growing.settles_meaning state).lag units).meaning_eq

/-- The meaning of a sequence is the sequence of the meanings. -/
theorem meaning_seq {first : Comp ε σ τ} {second : Comp ε τ α} (head : Growing empty first)
    (rest : Growing empty second) :
    meaning empty (Fuel.seq first second) =
      fun state => (meaning empty first state).bind (meaning empty second) := by
  funext state
  exact ((head.settles_meaning state).seq rest.settles_meaning).meaning_eq

/-- A frame is kept in the meaning. -/
theorem meaning_framed {enter : τ → σ} {leave : τ → α → β} (growing : Growing empty comp) :
    meaning empty (Fuel.framed enter leave comp) =
      fun outer => (meaning empty comp (enter outer)).map (leave outer) := by
  funext outer
  exact (growing.settles_meaning (enter outer)).framed.meaning_eq

/-- So is a test. -/
theorem meaning_branch (test : σ → Bool) (growing : Growing empty comp)
    (otherwise : Growing empty other) :
    meaning empty (Fuel.branch test comp other) =
      fun state => if test state then meaning empty comp state
        else meaning empty other state := by
  funext state
  exact ((growing.settles_meaning state).branch test
    (otherwise.settles_meaning state)).meaning_eq

end Growing

theorem meaning_const (empty : ε) (outcomes : σ → Except ε α) :
    meaning empty (fun _ => outcomes) = outcomes :=
  funext fun state => (Settles.const outcomes state).meaning_eq

end YulGasRules.Fuel
