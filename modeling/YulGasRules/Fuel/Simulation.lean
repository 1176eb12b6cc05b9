import YulGasRules.Fuel.Relation

/-!
# Simulating a meaning

Two computations that spend fuel differently cannot run side by side.  Instead, one of
them is held against the meaning of the other: at each amount of fuel it gives up, or
has an outcome related to the one that is meant.  The rules are those of related
computations, with fuel on one side only.

A simulation in both directions, at all amounts of fuel, relates the meanings.
-/

namespace YulGasRules.Fuel

universe u v w x

variable {ε ε' : Type u} {σ σ' τ τ' : Type v} {α α' : Type w} {β β' : Type x}

/-! ## Simulated outcomes -/

/-- The outcome is exhaustion, or related to the one that is meant. -/
def Simulated (empty : ε) (T : α → α' → Prop) (E : ε → ε' → Prop) (outcome : Except ε α)
    (meant : Except ε' α') : Prop :=
  outcome = .error empty ∨ Related T E outcome meant

namespace Simulated

variable {empty : ε} {T : α → α' → Prop} {U : β → β' → Prop} {E : ε → ε' → Prop}
variable {outcome : Except ε α} {meant : Except ε' α'}

/-- A computation that has run out of fuel is simulated by anything. -/
theorem gives_up (meant : Except ε' α') :
    Simulated empty T E (.error empty : Except ε α) meant :=
  .inl rfl

theorem ok {value : α} {value' : α'} (results : T value value') :
    Simulated empty T E (.ok value) (.ok value') :=
  .inr (.ok results)

theorem error {exception : ε} {exception' : ε'} (exceptions : E exception exception') :
    Simulated empty T E (.error exception) (.error exception') :=
  .inr (.error exceptions)

/-- What approximates an outcome is simulated by all that is related to this outcome. -/
theorem of_approximates {final : Except ε α} (approximates : Approximates empty outcome final)
    (related : Related T E final meant) : Simulated empty T E outcome meant := by
  rcases approximates with up | same
  · exact .inl up
  · rw [same]
    exact .inr related

theorem mono {T' : α → α' → Prop} {F : ε → ε' → Prop}
    (simulated : Simulated empty T E outcome meant)
    (results : ∀ value value', T value value' → T' value value')
    (exceptions : ∀ exception exception', E exception exception' → F exception exception') :
    Simulated empty T' F outcome meant :=
  simulated.imp_right fun related => related.mono results exceptions

theorem bind {next : α → Except ε β} {next' : α' → Except ε' β'}
    (simulated : Simulated empty T E outcome meant)
    (rest : ∀ value value', T value value' → Simulated empty U E (next value) (next' value')) :
    Simulated empty U E (outcome.bind next) (meant.bind next') := by
  rcases simulated with up | related
  · rw [up]
    exact gives_up _
  · cases related with
    | ok results => exact rest _ _ results
    | error exceptions => exact error exceptions

theorem map {image : α → β} {image' : α' → β'} (simulated : Simulated empty T E outcome meant)
    (images : ∀ value value', T value value' → U (image value) (image' value')) :
    Simulated empty U E (outcome.map image) (meant.map image') := by
  rcases simulated with up | related
  · rw [up]
    exact gives_up _
  · exact .inr (related.map images)

/-- The same test on both sides. -/
theorem ite {test test' : Prop} [Decidable test] [Decidable test'] (same : test ↔ test')
    {other : Except ε α} {other' : Except ε' α'} (taken : Simulated empty T E outcome meant)
    (skipped : Simulated empty T E other other') :
    Simulated empty T E (if test then outcome else other)
      (if test' then meant else other') := by
  by_cases holds : test
  · rw [if_pos holds, if_pos (same.mp holds)]
    exact taken
  · rw [if_neg holds, if_neg (mt same.mpr holds)]
    exact skipped

end Simulated

/-! ## Simulating computations -/

/-- With `fuel`, the outcome from a state is simulated by what is meant from a related
one. -/
def SimulatesAt (empty : ε) (R : σ → σ' → Prop) (T : α → α' → Prop) (E : ε → ε' → Prop)
    (comp : Comp ε σ α) (meant : σ' → Except ε' α') (fuel : Nat) : Prop :=
  ∀ state state', R state state' → Simulated empty T E (comp fuel state) (meant state')

namespace SimulatesAt

variable {empty : ε} {R : σ → σ' → Prop} {S : τ → τ' → Prop} {T : α → α' → Prop}
variable {U : β → β' → Prop} {E : ε → ε' → Prop} {comp other : Comp ε σ α}
variable {meant otherwise : σ' → Except ε' α'} {fuel : Nat}

/-- Outcomes that need no fuel have to be related. -/
theorem const {outcomes : σ → Except ε α} (related : ∀ state state', R state state' →
      Related T E (outcomes state) (meant state')) :
    SimulatesAt empty R T E (fun _ => outcomes) meant fuel :=
  fun state state' holds => .inr (related state state' holds)

/-- The simulation spends no fuel. -/
theorem tick (earlier : ∀ less, less < fuel → SimulatesAt empty R T E comp meant less) :
    SimulatesAt empty R T E (Fuel.tick empty comp) meant fuel := by
  intro state state' holds
  cases fuel with
  | zero => exact .gives_up _
  | succ fuel => exact earlier fuel (Nat.lt_succ_self fuel) state state' holds

/-- Simulations follow each other. -/
theorem seq {first : Comp ε σ τ} {meantFirst : σ' → Except ε' τ'} {second : Comp ε τ α}
    {meantSecond : τ' → Except ε' α'} (head : SimulatesAt empty R S E first meantFirst fuel)
    (rest : SimulatesAt empty S T E second meantSecond fuel) :
    SimulatesAt empty R T E (Fuel.seq first second)
      (fun state => (meantFirst state).bind meantSecond) fuel :=
  fun state state' holds => (head state state' holds).bind rest

/-- The frames have to be entered and left in related states. -/
theorem framed {enter : τ → σ} {enter' : τ' → σ'} {leave : τ → α → β}
    {leave' : τ' → α' → β'} (simulates : SimulatesAt empty R T E comp meant fuel)
    (entered : ∀ outer outer', S outer outer' → R (enter outer) (enter' outer'))
    (left : ∀ outer outer' value value', S outer outer' → T value value' →
      U (leave outer value) (leave' outer' value')) :
    SimulatesAt empty S U E (Fuel.framed enter leave comp)
      (fun outer => (meant (enter' outer)).map (leave' outer)) fuel :=
  fun outer outer' holds =>
    (simulates _ _ (entered outer outer' holds)).map fun value value' =>
      left outer outer' value value' holds

/-- The tests have to come out the same. -/
theorem branch {test : σ → Bool} {test' : σ' → Bool}
    (tests : ∀ state state', R state state' → test state = test' state')
    (taken : SimulatesAt empty R T E comp meant fuel)
    (skipped : SimulatesAt empty R T E other otherwise fuel) :
    SimulatesAt empty R T E (Fuel.branch test comp other)
      (fun state => if test' state then meant state else otherwise state) fuel := by
  intro state state' holds
  simp only [Fuel.branch]
  rw [tests state state' holds]
  cases test' state' with
  | true => exact taken state state' holds
  | false => exact skipped state state' holds

end SimulatesAt

/-! ## From simulations to meanings -/

/-- Computations that simulate each other's meaning have related meanings. -/
theorem Growing.related_of_simulated {empty : ε} {empty' : ε'} {T : α → α' → Prop}
    {E : ε → ε' → Prop} {comp : Comp ε σ α} {comp' : Comp ε' σ' α'}
    (growing : Growing empty comp) (growing' : Growing empty' comp')
    (exhausted : E empty empty') {state : σ} {state' : σ'}
    (forth : ∀ fuel, Simulated empty T E (comp fuel state) (meaning empty' comp' state'))
    (back : ∀ fuel, Simulated empty' (flip T) (flip E) (comp' fuel state')
      (meaning empty comp state)) :
    Related T E (meaning empty comp state) (meaning empty' comp' state') := by
  rcases growing.settles_meaning state with ⟨fuel, means⟩
  rcases growing'.settles_meaning state' with ⟨fuel', means'⟩
  have left := forth fuel
  have right := back fuel'
  rw [means fuel (Nat.le_refl fuel)] at left
  rw [means' fuel' (Nat.le_refl fuel')] at right
  rcases left with up | related
  · rcases right with up' | related'
    · rw [up, up']
      exact .error exhausted
    · rw [up] at related' ⊢
      generalize meaning empty' comp' state' = outcome at related' ⊢
      cases related' with
      | error exceptions => exact .error exceptions
  · exact related

end YulGasRules.Fuel
