import Mathlib.Data.List.Basic

/-!
# Guarded runs of labelled machines

A machine answers an action either by refusing it or by a successor state and
the observations it emits.  A configuration keeps a state together with every
observation made on the way to it, so that a property of a whole run is a
property of the configuration at its end.

`Reaches step ok start` collects the configurations of all finite runs whose
single transitions satisfy the guard `ok`.  The guard sees the configuration
before the transition, the action, and the configuration after it: it states
the domain of a run property and, where the machine needs one, the condition
under which the property holds.
-/

namespace Obelus.Transition

universe u v w

/-- The answer to an action: refused, or a successor state with the
observations emitted by the transition, oldest first. -/
abbrev Machine (σ : Type u) (α : Type v) (β : Type w) :=
  σ → α → Option (σ × List β)

/-- A state with everything observed before it was reached, oldest first. -/
structure Config (σ : Type u) (β : Type w) where
  state : σ
  trace : List β

/-- Admissibility of one transition of a run. -/
abbrev Guard (σ : Type u) (α : Type v) (β : Type w) :=
  Config σ β → α → Config σ β → Prop

variable {σ : Type u} {α : Type v} {β : Type w}

/-- The configuration of a fresh machine. -/
def Config.initial (start : σ) : Config σ β :=
  ⟨start, []⟩

@[simp]
theorem Config.initial_state (start : σ) : (Config.initial start : Config σ β).state = start :=
  rfl

@[simp]
theorem Config.initial_trace (start : σ) : (Config.initial start : Config σ β).trace = [] :=
  rfl

/-- One transition of a machine on configurations. -/
def advance (step : Machine σ α β) (config : Config σ β) (action : α) :
    Option (Config σ β) :=
  (step config.state action).map fun result =>
    ⟨result.1, config.trace ++ result.2⟩

variable {step : Machine σ α β} {config final : Config σ β} {ok : Guard σ α β} {start : σ}
  {actions : List α}

theorem advance_eq_some_iff {next : Config σ β} {action : α} :
    advance step config action = some next ↔
      ∃ emitted, step config.state action = some (next.state, emitted) ∧
        next.trace = config.trace ++ emitted := by
  rcases next with ⟨state, trace⟩
  simp only [advance, Option.map_eq_some_iff, Prod.exists, Config.mk.injEq]
  constructor
  · rintro ⟨state, emitted, stepped, rfl, rfl⟩
    exact ⟨emitted, stepped, rfl⟩
  · rintro ⟨emitted, stepped, rfl⟩
    exact ⟨state, emitted, stepped, rfl, rfl⟩

/-- The configurations of the finite runs from `start` whose transitions all
satisfy `ok`. -/
inductive Reaches (step : Machine σ α β) (ok : Guard σ α β) (start : σ) :
    Config σ β → Prop
  | refl : Reaches step ok start (Config.initial start)
  | tail {config next : Config σ β} {action : α} :
      Reaches step ok start config → advance step config action = some next →
      ok config action next → Reaches step ok start next

/-- The run lemma: what holds of the fresh machine and survives every
admissible transition holds at the end of every admissible run. -/
theorem Reaches.invariant (property : Config σ β → Prop)
    (initially : property (Config.initial start))
    (preserved : ∀ ⦃config next action⦄, Reaches step ok start config →
      property config → advance step config action = some next →
      ok config action next → property next) (reaches : Reaches step ok start config) :
    property config := by
  induction reaches with
  | refl => exact initially
  | tail before advanced admitted holds =>
    exact preserved before holds advanced admitted

/-- A weaker guard admits more runs. -/
theorem Reaches.mono {ok' : Guard σ α β}
    (weaker : ∀ ⦃config action next⦄, ok config action next → ok' config action next)
    (reaches : Reaches step ok start config) : Reaches step ok' start config := by
  induction reaches with
  | refl => exact Reaches.refl
  | tail _ advanced admitted reached =>
    exact Reaches.tail reached advanced (weaker admitted)

/-- Run a machine on a list of actions, failing at the first refused one. -/
def exec (step : Machine σ α β) : Config σ β → List α → Option (Config σ β)
  | config, [] => some config
  | config, action :: rest =>
    match advance step config action with
    | none => none
    | some next => exec step next rest

/-- Every transition of an execution satisfies the guard. -/
def Admissible (step : Machine σ α β) (ok : Guard σ α β) :
    Config σ β → List α → Prop
  | _, [] => True
  | config, action :: rest =>
    match advance step config action with
    | none => False
    | some next => ok config action next ∧ Admissible step ok next rest

instance Admissible.decidable {step : Machine σ α β} {ok : Guard σ α β}
    [∀ config action next, Decidable (ok config action next)] :
    ∀ config actions, Decidable (Admissible step ok config actions)
  | _, [] => isTrue trivial
  | config, action :: rest =>
    match h : advance step config action with
    | none => isFalse (by simp [Admissible, h])
    | some next =>
      have : Decidable (Admissible step ok next rest) := Admissible.decidable next rest
      decidable_of_iff (ok config action next ∧ Admissible step ok next rest)
        (by simp [Admissible, h])

/-- An admissible execution extends an admissible run. -/
theorem Reaches.exec (reaches : Reaches step ok start config)
    (admissible : Admissible step ok config actions)
    (executed : exec step config actions = some final) : Reaches step ok start final := by
  induction actions generalizing config with
  | nil =>
    cases executed
    exact reaches
  | cons action rest ih =>
    simp only [Admissible] at admissible
    simp only [Transition.exec] at executed
    cases advanced : advance step config action with
    | none => simp [advanced] at executed
    | some next =>
      rw [advanced] at admissible executed
      exact ih (Reaches.tail reaches advanced admissible.1) admissible.2 executed

/-- The configuration an admissible list of actions leads to from the fresh
machine is reached. -/
theorem reaches_of_exec (actions : List α)
    (admissible : Admissible step ok (Config.initial start) actions)
    (executed : exec step (Config.initial start) actions = some final) :
    Reaches step ok start final :=
  Reaches.refl.exec admissible executed

/-- A property found at the end of an admissible execution holds of a reached
configuration. -/
theorem exists_reaches_of_exec (step : Machine σ α β) (ok : Guard σ α β) (start : σ)
    (property : Config σ β → Prop) (actions : List α)
    (admissible : Admissible step ok (Config.initial start) actions)
    (found : ∃ config ∈ exec step (Config.initial start) actions, property config) :
    ∃ config, Reaches step ok start config ∧ property config := by
  obtain ⟨config, executed, holds⟩ := found
  exact ⟨config, reaches_of_exec actions admissible executed, holds⟩

/-- A property holds before and after every transition of an execution. -/
def Throughout (step : Machine σ α β) (property : Config σ β → Prop) :
    Config σ β → List α → Prop
  | config, [] => property config
  | config, action :: rest =>
    property config ∧
      match advance step config action with
      | none => False
      | some next => Throughout step property next rest

/-- A property that each transition of a domain keeps exactly under a guard
holds throughout the executions of the domain that satisfy the guard, and only
there. -/
theorem throughout_iff_admissible {domain : Guard σ α β} {property : Config σ β → Prop}
    (kept : ∀ ⦃config next action⦄, property config → advance step config action = some next →
      domain config action next → (property next ↔ ok config action next)) (holds : property config)
    (inDomain : Admissible step domain config actions) :
    Throughout step property config actions ↔ Admissible step ok config actions := by
  induction actions generalizing config with
  | nil => simpa [Throughout, Admissible] using holds
  | cons action rest ih =>
    simp only [Admissible, Throughout] at inDomain ⊢
    cases advanced : advance step config action with
    | none => simp [advanced] at inDomain
    | some next =>
      rw [advanced] at inDomain
      have keptHere := kept holds advanced inDomain.1
      constructor
      · rintro ⟨-, later⟩
        have holdsNext : property next := by
          cases rest with
          | nil => exact later
          | cons _ _ => exact later.1
        exact ⟨keptHere.mp holdsNext, (ih holdsNext inDomain.2).mp later⟩
      · rintro ⟨admitted, later⟩
        have holdsNext := keptHere.mpr admitted
        exact ⟨holds, (ih holdsNext inDomain.2).mpr later⟩

end Obelus.Transition
