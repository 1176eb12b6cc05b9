import YulGasRules.Fuel.Meaning

/-!
# Relating two computations

Two computations run side by side, on the same fuel and from related states.  Their
outcomes are related if both end normally with related results, or both raise related
exceptions.  Each combinator has a rule; a unit of fuel spent hands over to the smaller
amounts, so that the outcomes of an evaluator are related by strong induction.

If the outcomes are related at all amounts of fuel, then so are the meanings.
-/

namespace YulGasRules.Fuel

universe u v w x

variable {ε ε' : Type u} {σ σ' τ τ' : Type v} {α α' : Type w} {β β' : Type x}

/-! ## Related outcomes -/

/-- Normal results are related by `T` and exceptions by `E`. -/
inductive Related (T : α → α' → Prop) (E : ε → ε' → Prop) :
    Except ε α → Except ε' α' → Prop where
  | ok {value : α} {value' : α'} (results : T value value') :
      Related T E (.ok value) (.ok value')
  | error {exception : ε} {exception' : ε'} (exceptions : E exception exception') :
      Related T E (.error exception) (.error exception')

namespace Related

variable {T : α → α' → Prop} {U : β → β' → Prop} {E F : ε → ε' → Prop}
variable {outcome : Except ε α} {outcome' : Except ε' α'}

/-- Outcomes stay related by weaker relations. -/
theorem mono {T' : α → α' → Prop} (related : Related T E outcome outcome')
    (results : ∀ value value', T value value' → T' value value')
    (exceptions : ∀ exception exception', E exception exception' → F exception exception') :
    Related T' F outcome outcome' := by
  cases related with
  | ok held => exact .ok (results _ _ held)
  | error held => exact .error (exceptions _ _ held)

/-- Related outcomes may be followed by computations that relate them further. -/
theorem bind {next : α → Except ε β} {next' : α' → Except ε' β'}
    (related : Related T E outcome outcome')
    (rest : ∀ value value', T value value' → Related U E (next value) (next' value')) :
    Related U E (outcome.bind next) (outcome'.bind next') := by
  cases related with
  | ok results => exact rest _ _ results
  | error exceptions => exact .error exceptions

theorem map {image : α → β} {image' : α' → β'} (related : Related T E outcome outcome')
    (images : ∀ value value', T value value' → U (image value) (image' value')) :
    Related U E (outcome.map image) (outcome'.map image') := by
  cases related with
  | ok results => exact .ok (images _ _ results)
  | error exceptions => exact .error exceptions

/-- The same test on both sides. -/
theorem ite {test test' : Prop} [Decidable test] [Decidable test'] (same : test ↔ test')
    {other : Except ε α} {other' : Except ε' α'} (taken : Related T E outcome outcome')
    (skipped : Related T E other other') :
    Related T E (if test then outcome else other) (if test' then outcome' else other') := by
  by_cases holds : test
  · rw [if_pos holds, if_pos (same.mp holds)]
    exact taken
  · rw [if_neg holds, if_neg (mt same.mpr holds)]
    exact skipped

end Related

/-- The same outcome on both sides is related if the relations are reflexive. -/
theorem Related.refl {T : α → α → Prop} {E : ε → ε → Prop} (results : ∀ value, T value value)
    (exceptions : ∀ exception, E exception exception) (outcome : Except ε α) :
    Related T E outcome outcome := by
  cases outcome with
  | ok value => exact .ok (results value)
  | error exception => exact .error (exceptions exception)

/-! ## Related computations -/

/-- With `fuel`, related states lead to related outcomes. -/
def RelatesAt (R : σ → σ' → Prop) (T : α → α' → Prop) (E : ε → ε' → Prop)
    (comp : Comp ε σ α) (comp' : Comp ε' σ' α') (fuel : Nat) : Prop :=
  ∀ state state', R state state' → Related T E (comp fuel state) (comp' fuel state')

namespace RelatesAt

variable {R : σ → σ' → Prop} {S : τ → τ' → Prop} {T : α → α' → Prop} {U : β → β' → Prop}
variable {E : ε → ε' → Prop} {comp other : Comp ε σ α} {comp' other' : Comp ε' σ' α'}
variable {fuel : Nat}

/-- Computations that do not look at the fuel. -/
theorem const {outcomes : σ → Except ε α} {outcomes' : σ' → Except ε' α'}
    (related : ∀ state state', R state state' →
      Related T E (outcomes state) (outcomes' state')) :
    RelatesAt R T E (fun _ => outcomes) (fun _ => outcomes') fuel :=
  related

/-- The unit of fuel is spent on both sides. -/
theorem tick {empty : ε} {empty' : ε'} (exhausted : E empty empty')
    (earlier : ∀ less, less < fuel → RelatesAt R T E comp comp' less) :
    RelatesAt R T E (Fuel.tick empty comp) (Fuel.tick empty' comp') fuel := by
  intro state state' holds
  cases fuel with
  | zero => exact .error exhausted
  | succ fuel => exact earlier fuel (Nat.lt_succ_self fuel) state state' holds

theorem seq {first : Comp ε σ τ} {first' : Comp ε' σ' τ'} {second : Comp ε τ α}
    {second' : Comp ε' τ' α'} (head : RelatesAt R S E first first' fuel)
    (rest : RelatesAt S T E second second' fuel) :
    RelatesAt R T E (Fuel.seq first second) (Fuel.seq first' second') fuel :=
  fun state state' holds => (head state state' holds).bind rest

/-- The frames have to be entered and left in related states. -/
theorem framed {enter : τ → σ} {enter' : τ' → σ'} {leave : τ → α → β}
    {leave' : τ' → α' → β'} (relates : RelatesAt R T E comp comp' fuel)
    (entered : ∀ outer outer', S outer outer' → R (enter outer) (enter' outer'))
    (left : ∀ outer outer' value value', S outer outer' → T value value' →
      U (leave outer value) (leave' outer' value')) :
    RelatesAt S U E (Fuel.framed enter leave comp) (Fuel.framed enter' leave' comp') fuel :=
  fun outer outer' holds =>
    (relates _ _ (entered outer outer' holds)).map fun value value' =>
      left outer outer' value value' holds

theorem branch {test : σ → Bool} {test' : σ' → Bool}
    (tests : ∀ state state', R state state' → test state = test' state')
    (taken : RelatesAt R T E comp comp' fuel) (skipped : RelatesAt R T E other other' fuel) :
    RelatesAt R T E (Fuel.branch test comp other) (Fuel.branch test' comp' other') fuel := by
  intro state state' holds
  simp only [Fuel.branch]
  rw [tests state state' holds]
  cases test' state' with
  | true => exact taken state state' holds
  | false => exact skipped state state' holds

end RelatesAt

/-- Computations that relate at all amounts of fuel have related meanings. -/
theorem Growing.related_meaning {empty : ε} {empty' : ε'} {R : σ → σ' → Prop}
    {T : α → α' → Prop} {E : ε → ε' → Prop} {comp : Comp ε σ α} {comp' : Comp ε' σ' α'}
    (growing : Growing empty comp) (growing' : Growing empty' comp')
    (relates : ∀ fuel, RelatesAt R T E comp comp' fuel) {state : σ} {state' : σ'}
    (holds : R state state') :
    Related T E (meaning empty comp state) (meaning empty' comp' state') := by
  have settles := settles_iff.mp (growing.settles_meaning state)
  have settles' := settles_iff.mp (growing'.settles_meaning state')
  rcases (settles.and settles').exists with ⟨fuel, means, means'⟩
  rw [← means, ← means']
  exact relates fuel state state' holds

end YulGasRules.Fuel
