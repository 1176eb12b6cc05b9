import YulGasRules.Fuel.Judgment

/-!
# Approximation by less fuel

With less fuel a computation may give up, but it must not come to a different
outcome.  This orders outcomes: the exception that reports exhaustion is below every
outcome, and the others are incomparable.

A computation grows at an amount of fuel if one unit more takes its outcomes up in
this order.  Each combinator has a rule; a unit of fuel spent hands over to the
smaller amounts, so that an evaluator grows by strong induction.
-/

namespace YulGasRules.Fuel

universe u v w x

variable {ε : Type u} {σ τ : Type v} {α : Type w} {β : Type x}

/-- `less` gives up or has the outcome `more`. -/
def Approximates (empty : ε) (less more : Except ε α) : Prop :=
  less = .error empty ∨ less = more

namespace Approximates

variable {empty : ε} {less more most : Except ε α}

theorem refl (outcome : Except ε α) : Approximates empty outcome outcome :=
  .inr rfl

/-- Running out of fuel approximates everything. -/
theorem gives_up (outcome : Except ε α) : Approximates empty (.error empty) outcome :=
  .inl rfl

/-- Approximations can be chained. -/
theorem trans (first : Approximates empty less more) (second : Approximates empty more most) :
    Approximates empty less most := by
  rcases first with up | same
  · exact .inl up
  · rw [same]
    exact second

/-- An outcome other than exhaustion is final. -/
theorem eq_of_ne (approximates : Approximates empty less more) (final : less ≠ .error empty) :
    less = more :=
  approximates.resolve_left final

/-- What follows an approximation has to approximate from the same values. -/
theorem bind {next next' : α → Except ε β} (approximates : Approximates empty less more)
    (rest : ∀ value, Approximates empty (next value) (next' value)) :
    Approximates empty (less.bind next) (more.bind next') := by
  rcases approximates with up | same
  · rw [up]
    exact gives_up _
  · rw [same]
    cases more with
    | error exception => exact refl _
    | ok value => exact rest value

theorem map {image : α → β} (approximates : Approximates empty less more) :
    Approximates empty (less.map image) (more.map image) := by
  rcases approximates with up | same
  · rw [up]
    exact gives_up _
  · rw [same]
    exact refl _

end Approximates

/-- One unit more than `fuel` takes the outcomes of the computation up. -/
def GrowsAt (empty : ε) (comp : Comp ε σ α) (fuel : Nat) : Prop :=
  ∀ state, Approximates empty (comp fuel state) (comp (fuel + 1) state)

namespace GrowsAt

variable {empty : ε} {comp other : Comp ε σ α} {fuel : Nat}

/-- A computation that does not look at the fuel. -/
theorem const (outcome : σ → Except ε α) : GrowsAt empty (fun _ => outcome) fuel :=
  fun _ => .refl _

theorem tick (earlier : ∀ less, less < fuel → GrowsAt empty comp less) :
    GrowsAt empty (Fuel.tick empty comp) fuel := by
  intro state
  cases fuel with
  | zero => exact .gives_up _
  | succ fuel => exact earlier fuel (Nat.lt_succ_self fuel) state

/-- A computation that needs a single unit of fuel. -/
theorem steady {outcome : σ → Except ε α} (zero : ∀ state, comp 0 state = .error empty)
    (succ : ∀ fuel state, comp (fuel + 1) state = outcome state) : GrowsAt empty comp fuel := by
  intro state
  cases fuel with
  | zero =>
      rw [zero]
      exact .gives_up _
  | succ fuel =>
      rw [succ, succ]
      exact .refl _

theorem seq {first : Comp ε σ τ} {second : Comp ε τ α} (head : GrowsAt empty first fuel)
    (rest : GrowsAt empty second fuel) : GrowsAt empty (Fuel.seq first second) fuel :=
  fun state => (head state).bind rest

theorem framed {enter : τ → σ} {leave : τ → α → β} (grows : GrowsAt empty comp fuel) :
    GrowsAt empty (Fuel.framed enter leave comp) fuel :=
  fun outer => (grows (enter outer)).map

theorem branch (test : σ → Bool) (grows : GrowsAt empty comp fuel)
    (otherwise : GrowsAt empty other fuel) :
    GrowsAt empty (Fuel.branch test comp other) fuel := by
  intro state
  simp only [Fuel.branch]
  cases test state with
  | true => exact grows state
  | false => exact otherwise state

end GrowsAt

/-! ## Growing at every amount of fuel -/

/-- More fuel takes the outcomes of the computation up, whatever the amount. -/
abbrev Growing (empty : ε) (comp : Comp ε σ α) : Prop :=
  ∀ fuel, GrowsAt empty comp fuel

namespace Growing

variable {empty : ε} {comp other : Comp ε σ α} {P : σ → Prop} {Q : α → Prop} {E : ε → Prop}

theorem const (outcome : σ → Except ε α) : Growing empty (fun _ => outcome) :=
  fun _ => GrowsAt.const outcome

theorem tick (growing : Growing empty comp) : Growing empty (Fuel.tick empty comp) :=
  fun _ => GrowsAt.tick fun less _ => growing less

/-- Fuel may be kept back. -/
theorem lag (growing : Growing empty comp) (units : Nat) :
    Growing empty (Fuel.lag units comp) := by
  intro fuel state
  simp only [Fuel.lag]
  rcases Nat.lt_or_ge fuel units with short | enough
  · rw [Nat.sub_eq_zero_of_le short, Nat.sub_eq_zero_of_le (Nat.le_of_lt short)]
    exact .refl _
  · rw [Nat.succ_sub enough]
    exact growing (fuel - units) state

theorem seq {first : Comp ε σ τ} {second : Comp ε τ α} (head : Growing empty first)
    (rest : Growing empty second) : Growing empty (Fuel.seq first second) :=
  fun fuel => (head fuel).seq (rest fuel)

theorem framed {enter : τ → σ} {leave : τ → α → β} (growing : Growing empty comp) :
    Growing empty (Fuel.framed enter leave comp) :=
  fun fuel => (growing fuel).framed

theorem branch (test : σ → Bool) (growing : Growing empty comp)
    (otherwise : Growing empty other) : Growing empty (Fuel.branch test comp other) :=
  fun fuel => (growing fuel).branch test (otherwise fuel)

/-- With more fuel an outcome is the same, or there was none before. -/
theorem approximates_of_le (growing : Growing empty comp) {less more : Nat} (le : less ≤ more)
    (state : σ) : Approximates empty (comp less state) (comp more state) := by
  induction le with
  | refl => exact .refl _
  | step _ ih => exact ih.trans (growing _ state)

/-- What a growing computation eventually does it does with any fuel, unless it gives
up. -/
theorem ends_of_eventually (growing : Growing empty comp)
    (eventually : Eventually P comp Q E) (fuel : Nat) {state : σ} (holds : P state) :
    Ends Q (fun exception => exception = empty ∨ E exception) (comp fuel state) := by
  obtain ⟨threshold, beyond⟩ := eventually
  rcases growing.approximates_of_le (Nat.le_max_left fuel threshold) state with up | same
  · rw [up]
    exact .inl rfl
  · rw [same]
    exact (beyond _ (Nat.le_max_right fuel threshold) state holds).mono
      (fun _ => id) (fun _ => .inr)

/-- For a growing computation it is enough to look at one amount of fuel. -/
theorem eventually_iff_exists (growing : Growing empty comp) (definite : ¬E empty) :
    Eventually P comp Q E ↔ ∃ fuel, ∀ state, P state → Ends Q E (comp fuel state) := by
  constructor
  · rintro ⟨threshold, beyond⟩
    exact ⟨threshold, beyond threshold (Nat.le_refl threshold)⟩
  · rintro ⟨fuel, ends⟩
    refine ⟨fuel, ?_⟩
    intro more enough state holds
    have final : comp fuel state ≠ .error empty := by
      intro up
      have atEmpty := ends state holds
      rw [up] at atEmpty
      exact definite atEmpty
    rw [← (growing.approximates_of_le enough state).eq_of_ne final]
    exact ends state holds

end Growing

end YulGasRules.Fuel
