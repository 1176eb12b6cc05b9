import Mathlib.Order.Filter.AtTopBot.Basic

/-!
# A judgment about fuel-indexed computations

An evaluator that runs on fuel is a family of functions from states to outcomes.
Such evaluators are built from a few combinators: sequencing, branching, spending
fuel, and running a part in a state of its own.

The judgment `Eventually` relates a precondition on the state to what the outcome
may be, as a normal result or as an exception, for all fuel beyond a threshold that
is the same for all states of the precondition.  Each combinator has one rule.
-/

namespace YulGasRules.Fuel

open Filter (atTop)

universe u v w x

variable {ε : Type u} {σ τ : Type v} {α : Type w} {β : Type x}

/-- A computation indexed by fuel. -/
abbrev Comp (ε : Type u) (σ : Type v) (α : Type w) := Nat → σ → Except ε α

/-- Spend a unit of fuel; without any, raise `empty`. -/
def tick (empty : ε) (comp : Comp ε σ α) : Comp ε σ α
  | 0, _ => .error empty
  | fuel + 1, state => comp fuel state

/-- Run `first`, then `second` on its result, with the same fuel. -/
def seq (first : Comp ε σ τ) (second : Comp ε τ α) : Comp ε σ α :=
  fun fuel state => (first fuel state).bind (second fuel)

/-- Run `comp` on the fuel that is left after spending some. -/
def lag (units : Nat) (comp : Comp ε σ α) : Comp ε σ α :=
  fun fuel => comp (fuel - units)

/-- Run `comp` where the test holds, and `other` elsewhere. -/
def branch (test : σ → Bool) (comp other : Comp ε σ α) : Comp ε σ α :=
  fun fuel state => if test state then comp fuel state else other fuel state

/-- Run `comp` in a state of its own: `enter` sets that state up and `leave`
combines the result with the state outside. -/
def framed (enter : τ → σ) (leave : τ → α → β) (comp : Comp ε σ α) : Comp ε τ β :=
  fun fuel outer => (comp fuel (enter outer)).map (leave outer)

/-! ## Postconditions of one outcome -/

/-- A normal result satisfies `Q`, an exception satisfies `E`. -/
def Ends (Q : α → Prop) (E : ε → Prop) : Except ε α → Prop
  | .ok value => Q value
  | .error exception => E exception

@[simp] theorem ends_ok (Q : α → Prop) (E : ε → Prop) (value : α) :
    Ends Q E (.ok value) ↔ Q value := Iff.rfl

@[simp] theorem ends_error (Q : α → Prop) (E : ε → Prop) (exception : ε) :
    Ends Q E (.error exception : Except ε α) ↔ E exception := Iff.rfl

namespace Ends

variable {Q Q' : α → Prop} {R : β → Prop} {E E' : ε → Prop} {outcome : Except ε α}

/-- The postconditions may be weakened. -/
theorem mono (ends : Ends Q E outcome) (normal : ∀ value, Q value → Q' value)
    (exceptional : ∀ exception, E exception → E' exception) : Ends Q' E' outcome := by
  cases outcome with
  | ok value => exact normal value ends
  | error exception => exact exceptional exception ends

theorem bind {next : α → Except ε β} (ends : Ends Q E outcome)
    (rest : ∀ value, Q value → Ends R E (next value)) :
    Ends R E (outcome.bind next) := by
  cases outcome with
  | ok value => exact rest value ends
  | error exception => exact ends

theorem map {image : α → β} (ends : Ends Q E outcome)
    (mapped : ∀ value, Q value → R (image value)) :
    Ends R E (outcome.map image) := by
  cases outcome with
  | ok value => exact mapped value ends
  | error exception => exact ends

/-- Where no exception is possible there is a result. -/
theorem exists_ok (ends : Ends Q (fun _ => False) outcome) :
    ∃ value, outcome = .ok value ∧ Q value := by
  cases outcome with
  | ok value => exact ⟨value, rfl, ends⟩
  | error exception => exact ends.elim

/-- Where no result is possible there is an exception. -/
theorem exists_error (ends : Ends (fun _ => False) E outcome) :
    ∃ exception, outcome = .error exception ∧ E exception := by
  cases outcome with
  | ok value => exact ends.elim
  | error exception => exact ⟨exception, rfl, ends⟩

/-- A single exception is the whole outcome. -/
theorem raises_iff {exception : ε} :
    Ends (fun _ => False) (· = exception) outcome ↔ outcome = .error exception := by
  constructor
  · intro ends
    obtain ⟨_, raises, rfl⟩ := ends.exists_error
    exact raises
  · intro raises
    rw [raises]
    exact rfl

end Ends

/-! ## The judgment -/

/-- Beyond one threshold for all states in `P`, an outcome ends in `Q` or in `E`. -/
def Eventually (P : σ → Prop) (comp : Comp ε σ α) (Q : α → Prop) (E : ε → Prop) : Prop :=
  ∃ threshold, ∀ fuel, threshold ≤ fuel → ∀ state, P state → Ends Q E (comp fuel state)

section Rules

variable {P P' : σ → Prop} {P₁ : τ → Prop} {Q Q' : α → Prop} {R : β → Prop}
variable {E E' : ε → Prop} {comp comp' : Comp ε σ α}

/-- The judgment is about all but finitely many amounts of fuel. -/
theorem eventually_iff : Eventually P comp Q E ↔
    ∀ᶠ fuel in atTop, ∀ state, P state → Ends Q E (comp fuel state) :=
  Filter.eventually_atTop.symm

namespace Eventually

theorem mono (eventually : Eventually P comp Q E)
    (precondition : ∀ state, P' state → P state)
    (normal : ∀ value, Q value → Q' value)
    (exceptional : ∀ exception, E exception → E' exception) :
    Eventually P' comp Q' E' := by
  rw [eventually_iff] at *
  filter_upwards [eventually] with fuel ends state holds
  exact (ends state (precondition state holds)).mono normal exceptional

/-- The same for the normal end alone. -/
theorem mono_normal (eventually : Eventually P comp Q E)
    (normal : ∀ value, Q value → Q' value) : Eventually P comp Q' E :=
  eventually.mono (fun _ => id) normal (fun _ => id)

/-- The same for exceptions alone. -/
theorem mono_exceptional (eventually : Eventually P comp Q E)
    (exceptional : ∀ exception, E exception → E' exception) : Eventually P comp Q E' :=
  eventually.mono (fun _ => id) (fun _ => id) exceptional

/-- Only the outcomes from states that satisfy the precondition matter. -/
theorem congr (eventually : Eventually P comp Q E)
    (same : ∀ fuel state, P state → comp' fuel state = comp fuel state) :
    Eventually P comp' Q E := by
  rw [eventually_iff] at *
  filter_upwards [eventually] with fuel ends state holds
  rw [same fuel state holds]
  exact ends state holds

/-- What holds at any fuel holds eventually. -/
theorem of_forall (ends : ∀ fuel state, P state → Ends Q E (comp fuel state)) :
    Eventually P comp Q E :=
  eventually_iff.mpr (.of_forall ends)

/-- What holds with any fuel left holds eventually. -/
theorem of_succ (ends : ∀ fuel state, P state → Ends Q E (comp (fuel + 1) state)) :
    Eventually P comp Q E := by
  rw [eventually_iff, ← Filter.map_add_atTop_eq_nat 1, Filter.eventually_map]
  exact .of_forall ends

theorem tick {empty : ε} (eventually : Eventually P comp Q E) :
    Eventually P (Fuel.tick empty comp) Q E := by
  rw [eventually_iff] at *
  rw [← Filter.map_add_atTop_eq_nat 1, Filter.eventually_map]
  exact eventually

/-- A unit of fuel is all that is needed. -/
theorem tick_const {empty : ε} {outcomes : σ → Except ε α}
    (ends : ∀ state, P state → Ends Q E (outcomes state)) :
    Eventually P (Fuel.tick empty fun _ => outcomes) Q E :=
  tick (of_forall fun _ => ends)

theorem seq {first : Comp ε σ τ} {second : Comp ε τ α}
    (head : Eventually P first P₁ E) (rest : Eventually P₁ second Q E) :
    Eventually P (Fuel.seq first second) Q E := by
  rw [eventually_iff] at *
  filter_upwards [head, rest] with fuel ends after state holds
  exact (ends state holds).bind after

theorem lag (units : Nat) (eventually : Eventually P comp Q E) :
    Eventually P (Fuel.lag units comp) Q E := by
  rw [eventually_iff] at *
  exact (Filter.tendsto_sub_atTop_nat units).eventually eventually

theorem framed {enter : τ → σ} {leave : τ → α → β} (eventually : Eventually P comp Q E)
    (entered : ∀ outer, P₁ outer → P (enter outer))
    (left : ∀ outer value, P₁ outer → Q value → R (leave outer value)) :
    Eventually P₁ (Fuel.framed enter leave comp) R E := by
  rw [eventually_iff] at *
  filter_upwards [eventually] with fuel ends outer holds
  exact (ends (enter outer) (entered outer holds)).map fun value => left outer value holds

/-- Nothing comes after an exception. -/
theorem seq_of_raises {first : Comp ε σ τ} (raises : Eventually P first (fun _ => False) E)
    (second : Comp ε τ α) : Eventually P (Fuel.seq first second) Q E :=
  raises.seq (.of_forall fun _ _ impossible => impossible.elim)

/-- Nothing is claimed of the outcome. -/
protected theorem trivial (P : σ → Prop) (comp : Comp ε σ α) :
    Eventually P comp (fun _ => True) (fun _ => True) := by
  apply of_forall
  intro fuel state _
  cases comp fuel state with
  | ok value => exact True.intro
  | error exception => exact True.intro

/-- A fact that does not depend on the state may be assumed to hold. -/
theorem assume {fact : Prop} (eventually : fact → Eventually P comp Q E) :
    Eventually (fun state => P state ∧ fact) comp Q E := by
  by_cases holds : fact
  · exact (eventually holds).mono (fun _ both => both.1) (fun _ => id) (fun _ => id)
  · exact .of_forall fun _ _ both => (holds both.2).elim

/-- A fact that does not depend on the state is kept. -/
theorem frame (fact : Prop) (eventually : Eventually P comp Q E) :
    Eventually (fun state => P state ∧ fact) comp (fun value => Q value ∧ fact) E :=
  assume fun holds =>
    eventually.mono_normal fun _ normal => ⟨normal, holds⟩

end Eventually

end Rules

end YulGasRules.Fuel
