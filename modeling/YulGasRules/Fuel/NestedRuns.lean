import YulGasRules.Fuel.Judgment

/-!
# Systems with nested runs

A system moves between worlds by steps of its own, and by nested runs: a nested run
starts in a world that is entered from the outer one, and the world that it ends in is
left for the outer one again.

A relation that contains the steps, and that composition and nesting do not lead out
of, contains all runs.  Steps can be marked, and a run then takes a marked step, by
itself or in a run nested in it, or is a run of the system without these steps.

A fuel-indexed computation reaches worlds of a system if every world that its outcome
shows is the end of a run.  Each combinator has a rule.
-/

namespace YulGasRules.Fuel

universe u v w x y

/-- What there is to do in a world, by itself or in a nested run. -/
structure NestedSystem (World : Type u) where
  step : World → World → Prop
  enter : World → World → Prop
  /-- The outer world, the last inner world and the outer world afterwards. -/
  leave : World → World → World → Prop

namespace NestedSystem

variable {World : Type u} (system : NestedSystem World)

/-- Runs of the system, with the runs nested in them. -/
inductive Runs : World → World → Prop where
  | refl (world : World) : Runs world world
  | step {before after : World} (stepped : system.step before after) : Runs before after
  | trans {first second third : World} (run : Runs first second) (rest : Runs second third) :
      Runs first third
  | nested {outer start last after : World} (entered : system.enter outer start)
      (run : Runs start last) (left : system.leave outer last after) : Runs outer after

/-- A relation that neither a step, nor composition, nor nesting leads out of. -/
structure Absorbs (R : World → World → Prop) : Prop where
  refl : ∀ world, R world world
  step : ∀ {before after}, system.step before after → R before after
  trans : ∀ {first second third}, R first second → R second third → R first third
  nested : ∀ {outer start last after}, system.enter outer start → R start last →
    system.leave outer last after → R outer after

/-! ## Marked steps -/

section Marked

variable (mark : World → World → Prop)

/-- The system without the steps that are marked. -/
def without : NestedSystem World where
  step before after := system.step before after ∧ ¬mark before after
  enter := system.enter
  leave := system.leave

/-- Runs in which a marked step is taken, by themselves or in a run nested in them. -/
inductive Through : World → World → Prop where
  | step {before after : World} (stepped : system.step before after)
      (marked : mark before after) : Through before after
  | first {first second third : World} (run : Through first second)
      (rest : system.Runs second third) : Through first third
  | second {first second third : World} (run : system.Runs first second)
      (rest : Through second third) : Through first third
  | nested {outer start last after : World} (entered : system.enter outer start)
      (run : Through start last) (left : system.leave outer last after) : Through outer after

end Marked

/-- Worlds that no run leads out of.  Nothing is entered from them, and where a nested
run ends in one of them, so does the outer run. -/
structure Final (lost : World → Prop) : Prop where
  step : ∀ {before after}, system.step before after → lost before → lost after
  enter : ∀ {outer start}, system.enter outer start → ¬lost outer
  leave : ∀ {outer last after}, system.leave outer last after → lost last → lost after

/-! ## What runs do -/

variable {system} {mark : World → World → Prop} {lost : World → Prop}
variable {R : World → World → Prop}

/-- A relation that absorbs a system contains its runs. -/
theorem Absorbs.of_runs (absorbs : system.Absorbs R) {before after : World}
    (runs : system.Runs before after) : R before after := by
  induction runs with
  | refl world => exact absorbs.refl world
  | step stepped => exact absorbs.step stepped
  | trans _ _ first second => exact absorbs.trans first second
  | nested entered _ left inner => exact absorbs.nested entered inner left

/-- What is lost stays lost. -/
theorem Final.of_runs (final : system.Final lost) {before after : World}
    (runs : system.Runs before after) (gone : lost before) : lost after := by
  induction runs with
  | refl world => exact gone
  | step stepped => exact final.step stepped gone
  | trans _ _ first second => exact second (first gone)
  | nested entered _ _ _ => exact (final.enter entered gone).elim

/-- Where every marked step loses the world, it is lost after a run that takes one. -/
theorem Final.of_through (final : system.Final lost)
    (loses : ∀ {before after}, mark before after → lost after) {before after : World}
    (through : system.Through mark before after) : lost after := by
  induction through with
  | step _ marked => exact loses marked
  | first _ rest gone => exact final.of_runs rest gone
  | second _ _ gone => exact gone
  | nested _ _ left gone => exact final.leave left gone

/-- A run takes a marked step, or does without. -/
theorem Runs.through_or_without {before after : World} (runs : system.Runs before after) :
    system.Through mark before after ∨ (system.without mark).Runs before after := by
  induction runs with
  | refl world => exact .inr (.refl world)
  | @step before after stepped =>
      by_cases marked : mark before after
      · exact .inl (.step stepped marked)
      · exact .inr (.step ⟨stepped, marked⟩)
  | trans run rest first second =>
      rcases first with through | first
      · exact .inl (.first through rest)
      · rcases second with through | second
        · exact .inl (.second run through)
        · exact .inr (.trans first second)
  | nested entered _ left inner =>
      rcases inner with through | inner
      · exact .inl (.nested entered through left)
      · exact .inr (.nested entered inner left)

/-- What the other steps, composition and nesting do not lead out of holds of every run
that takes no marked step. -/
theorem Absorbs.of_runs_unless (absorbs : (system.without mark).Absorbs R)
    {before after : World} (runs : system.Runs before after) :
    system.Through mark before after ∨ R before after :=
  runs.through_or_without.imp_right absorbs.of_runs

end NestedSystem

/-! ## Outcomes that are reached -/

section Reaching

variable {World : Type u} {ε : Type v} {σ τ : Type w} {α : Type x} {β : Type y}

/-- Every world that the outcome shows, as a result or in an exception, is the end of a
run from `start`. -/
def Reaches (system : NestedSystem World) (raised : ε → World → Prop) (ended : α → World)
    (start : World) : Except ε α → Prop :=
  Ends (fun value => system.Runs start (ended value))
    (fun exception => ∀ world, raised exception world → system.Runs start world)

variable {system : NestedSystem World} {raised : ε → World → Prop}
variable {ended : α → World} {ended' : β → World} {start : World} {outcome : Except ε α}

namespace Reaches

/-- An exception that shows no world is reached. -/
theorem silent {exception : ε} (shows : ∀ world, ¬raised exception world) :
    Reaches system raised ended start (.error exception) :=
  fun world raises => (shows world raises).elim

/-- What is reached after a run is reached from where the run started. -/
theorem after {middle : World} (run : system.Runs start middle)
    (reaches : Reaches system raised ended middle outcome) :
    Reaches system raised ended start outcome :=
  reaches.mono (fun _ rest => run.trans rest) fun _ rest world raises =>
    run.trans (rest world raises)

theorem map {image : α → β} (reaches : Reaches system raised ended start outcome)
    (images : ∀ value, system.Runs start (ended value) →
      system.Runs start (ended' (image value))) :
    Reaches system raised ended' start (outcome.map image) :=
  Ends.map reaches images

theorem bind {next : α → Except ε β} (reaches : Reaches system raised ended start outcome)
    (rest : ∀ value, Reaches system raised ended' (ended value) (next value)) :
    Reaches system raised ended' start (outcome.bind next) := by
  cases outcome with
  | ok value => exact (rest value).after reaches
  | error exception => exact reaches

/-- What every run is related by holds of the worlds that are reached. -/
theorem ends {R : World → World → Prop}
    (contains : ∀ {before after}, system.Runs before after → R before after)
    (reaches : Reaches system raised ended start outcome) :
    Ends (fun value => R start (ended value))
      (fun exception => ∀ world, raised exception world → R start world) outcome :=
  reaches.mono (fun _ run => contains run) fun _ runs world raises =>
    contains (runs world raises)

end Reaches

/-! ## Computations that reach worlds -/

/-- With `fuel`, the outcome from any state is reached from the world of the state. -/
def ReachesAt (system : NestedSystem World) (raised : ε → World → Prop) (view : σ → World)
    (ended : α → World) (comp : Comp ε σ α) (fuel : Nat) : Prop :=
  ∀ state, Reaches system raised ended (view state) (comp fuel state)

namespace ReachesAt

variable {view : σ → World} {middle : τ → World} {comp other : Comp ε σ α} {fuel : Nat}

/-- A unit of fuel is no step. -/
theorem tick {empty : ε} (shows : ∀ world, ¬raised empty world)
    (earlier : ∀ less, less < fuel → ReachesAt system raised view ended comp less) :
    ReachesAt system raised view ended (Fuel.tick empty comp) fuel := by
  intro state
  cases fuel with
  | zero => exact Reaches.silent shows
  | succ fuel => exact earlier fuel (Nat.lt_succ_self fuel) state

/-- Runs follow each other as the computations do. -/
theorem seq {first : Comp ε σ τ} {second : Comp ε τ α}
    (head : ReachesAt system raised view middle first fuel)
    (rest : ReachesAt system raised middle ended second fuel) :
    ReachesAt system raised view ended (Fuel.seq first second) fuel :=
  fun state => (head state).bind rest

/-- A frame is entered and left by runs. -/
theorem framed {enter : τ → σ} {leave : τ → α → β}
    (reaches : ReachesAt system raised view ended comp fuel)
    (entered : ∀ outer, system.Runs (middle outer) (view (enter outer)))
    (left : ∀ outer value, system.Runs (middle outer) (ended value) →
      system.Runs (middle outer) (ended' (leave outer value))) :
    ReachesAt system raised middle ended' (Fuel.framed enter leave comp) fuel :=
  fun outer => ((reaches (enter outer)).after (entered outer)).map (left outer)

theorem branch (test : σ → Bool) (taken : ReachesAt system raised view ended comp fuel)
    (skipped : ReachesAt system raised view ended other fuel) :
    ReachesAt system raised view ended (Fuel.branch test comp other) fuel := by
  intro state
  simp only [Fuel.branch]
  cases test state with
  | true => exact taken state
  | false => exact skipped state

end ReachesAt

end Reaching

end YulGasRules.Fuel
