/-!
# Effects on paper

The effect of a computation, as far as it is known: it ends with a result, or it halts.
Where nothing is known, every outcome will do.  An effect describes an outcome if they end
with related results, or halt in related ways.  Sequences of effects describe sequences of
outcomes.
-/

namespace YulGasRules.Fuel

universe u v w x

/-- What a computation does, as far as it is known. -/
inductive Effect (η : Type u) (α : Type v) where
  | unknown
  | halts (halt : η)
  | ends (result : α)

namespace Effect

variable {η : Type u} {ε : Type v} {α β : Type w} {γ δ : Type x}

/-- An effect that ends is followed by another one. -/
def bind (effect : Effect η α) (next : α → Effect η γ) : Effect η γ :=
  match effect with
  | unknown => unknown
  | halts halt => halts halt
  | ends result => next result

/-- The result of an effect that ends is replaced. -/
def map (image : α → γ) (effect : Effect η α) : Effect η γ :=
  effect.bind fun result => ends (image result)

/-- The outcome shows the effect. -/
def Describes (H : η → ε → Prop) (R : α → β → Prop) : Effect η α → Except ε β → Prop
  | unknown, _ => True
  | halts halt, outcome => ∃ exception, outcome = .error exception ∧ H halt exception
  | ends result, outcome => ∃ value, outcome = .ok value ∧ R result value

namespace Describes

variable {H : η → ε → Prop} {R : α → β → Prop} {S : γ → δ → Prop}
variable {effect : Effect η α} {outcome : Except ε β}

theorem bind (describes : effect.Describes H R outcome) {next : α → Effect η γ}
    {next' : β → Except ε δ}
    (rest : ∀ result value, R result value → (next result).Describes H S (next' value)) :
    (effect.bind next).Describes H S (outcome.bind next') := by
  cases effect with
  | unknown => trivial
  | halts halt =>
      obtain ⟨exception, rfl, shows⟩ := describes
      exact ⟨exception, rfl, shows⟩
  | ends result =>
      obtain ⟨value, rfl, related⟩ := describes
      exact rest result value related

theorem bind_map (describes : effect.Describes H R outcome) {next : α → Effect η γ}
    {image : β → δ}
    (rest : ∀ result value, R result value → (next result).Describes H S (.ok (image value))) :
    (effect.bind next).Describes H S (outcome.map image) := by
  have same : outcome.map image = outcome.bind fun value => .ok (image value) := by
    cases outcome <;> rfl
  rw [same]
  exact describes.bind rest

theorem map (describes : effect.Describes H R outcome) {image : α → γ} {image' : β → δ}
    (images : ∀ result value, R result value → S (image result) (image' value)) :
    (effect.map image).Describes H S (outcome.map image') :=
  describes.bind_map fun result value related => ⟨image' value, rfl, images result value related⟩

end Describes

end Effect

end YulGasRules.Fuel
