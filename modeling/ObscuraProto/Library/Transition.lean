/-!
# Labelled transition systems

A system is an executable step function: a label that is not possible in a state
gives no next state.  Runs are restricted by a condition on the state and label
of every step, and invariants are carried along such runs.
-/

namespace Transition

universe u v u' v'

structure System (State : Type u) (Label : Type v) where
  initial : State
  step : State → Label → Option State

namespace System

variable {State : Type u} {Label : Type v} (system : System State Label)

/-- Follow the labels as long as each step is allowed and possible. -/
def run (allowed : State → Label → Prop) [∀ state label, Decidable (allowed state label)] :
    State → List Label → Option State
  | state, [] => some state
  | state, label :: labels =>
      if allowed state label then
        match system.step state label with
        | some next => run allowed next labels
        | none => none
      else none

/-- The states the labels lead through, the first and the last among them. -/
def Throughout (holds : State → Prop) : State → List Label → Prop
  | state, [] => holds state
  | state, label :: labels =>
      holds state ∧ ∀ next, system.step state label = some next → Throughout holds next labels

/-- A state reached from `origin` by allowed steps. -/
inductive Along (allowed : State → Label → Prop) (origin : State) : State → Prop
  | refl : Along allowed origin origin
  | step {state next : State} {label : Label} (before : Along allowed origin state)
      (permitted : allowed state label) (taken : system.step state label = some next) :
      Along allowed origin next

/-- A state reached from the initial one. -/
abbrev Reached (allowed : State → Label → Prop) : State → Prop :=
  system.Along allowed system.initial

/-- Every step is allowed. -/
abbrev Free : State → Label → Prop := fun _ _ => True

variable {system} {allowed permitted : State → Label → Prop} {origin middle state next : State}

namespace Along

theorem trans (first : system.Along allowed origin middle)
    (second : system.Along allowed middle state) : system.Along allowed origin state := by
  induction second with
  | refl => exact first
  | step _ permitted taken ih => exact .step ih permitted taken

theorem mono (weaker : ∀ state label, allowed state label → permitted state label)
    (reached : system.Along allowed origin state) : system.Along permitted origin state := by
  induction reached with
  | refl => exact .refl
  | step _ holds taken ih => exact .step ih (weaker _ _ holds) taken

theorem free (reached : system.Along allowed origin state) : system.Along Free origin state :=
  reached.mono fun _ _ _ => trivial

/-- One more step, with its label. -/
theorem take (before : system.Along allowed origin state) (label : Label)
    (permitted : allowed state label) (taken : system.step state label = some next) :
    system.Along allowed origin next :=
  before.step permitted taken

/-- What holds at the origin and is kept by every allowed step holds in every
state reached. -/
theorem invariant (holds : State → Prop) (reached : system.Along allowed origin state)
    (atOrigin : holds origin)
    (kept : ∀ state label next, holds state → allowed state label →
      system.step state label = some next → holds next) :
    holds state := by
  induction reached with
  | refl => exact atOrigin
  | step _ permitted taken ih => exact kept _ _ _ ih permitted taken

/-- A run is a run of another system, seen through a view under which every step is one or
more steps of that system, or none. -/
theorem through {Other : Type u'} {OtherLabel : Type v'} {other : System Other OtherLabel}
    {wanted : Other → OtherLabel → Prop} (view : State → Other)
    (reached : system.Along allowed origin state)
    (follows : ∀ state label next, allowed state label →
      system.step state label = some next → other.Along wanted (view state) (view next)) :
    other.Along wanted (view origin) (view state) := by
  induction reached with
  | refl => exact .refl
  | step _ permitted taken ih => exact ih.trans (follows _ _ _ permitted taken)

/-- A run is followed by another system, whose states stay related to those of the run. -/
theorem followed {Other : Type u'} {OtherLabel : Type v'} {other : System Other OtherLabel}
    {wanted : Other → OtherLabel → Prop} {known : State → Prop} (related : State → Other → Prop)
    (reached : system.Along allowed origin state)
    (sound : ∀ state, system.Along allowed origin state → known state) {start : Other}
    (atOrigin : related origin start)
    (follows : ∀ state label next shown, known state → related state shown → allowed state label →
      system.step state label = some next →
        ∃ after, other.Along wanted shown after ∧ related next after) :
    ∃ shown, other.Along wanted start shown ∧ related state shown := by
  induction reached with
  | refl => exact ⟨start, .refl, atOrigin⟩
  | step before permitted taken ih =>
      obtain ⟨shown, earlier, relates⟩ := ih
      obtain ⟨after, later, relates⟩ := follows _ _ _ _ (sound _ before) relates permitted taken
      exact ⟨after, earlier.trans later, relates⟩

/-- A step lemma may use an invariant already shown for the reached states. -/
theorem invariant_of {known : State → Prop} (holds : State → Prop)
    (reached : system.Along allowed origin state)
    (sound : ∀ state, system.Along allowed origin state → known state)
    (atOrigin : holds origin)
    (kept : ∀ state label next, known state → holds state → allowed state label →
      system.step state label = some next → holds next) :
    holds state := by
  induction reached with
  | refl => exact atOrigin
  | step before permitted taken ih => exact kept _ _ _ (sound _ before) ih permitted taken

end Along

theorem Throughout.first {holds : State → Prop} {labels : List Label}
    (throughout : system.Throughout holds origin labels) : holds origin := by
  cases labels with
  | nil => exact throughout
  | cons label labels => exact throughout.1

/-- A run takes its first step and goes on from there. -/
theorem run_cons [∀ state label, Decidable (allowed state label)] {label : Label}
    {labels : List Label} (ran : system.run allowed origin (label :: labels) = some state) :
    allowed origin label ∧ ∃ next, system.step origin label = some next ∧
      system.run allowed next labels = some state := by
  rw [run] at ran
  split at ran
  · next holds =>
      split at ran
      · next next taken => exact ⟨holds, next, taken, ran⟩
      · cases ran
  · cases ran

theorem run_of_step [∀ state label, Decidable (allowed state label)] {label : Label}
    {labels : List Label} (holds : allowed origin label)
    (taken : system.step origin label = some next) :
    system.run allowed origin (label :: labels) = system.run allowed next labels := by
  rw [run, if_pos holds, taken]

/-- A successful run ends in a state reached by allowed steps. -/
theorem along_of_run [∀ state label, Decidable (allowed state label)] {labels : List Label}
    (ran : system.run allowed origin labels = some state) :
    system.Along allowed origin state := by
  induction labels generalizing origin with
  | nil => cases ran; exact .refl
  | cons label labels ih =>
      obtain ⟨holds, next, taken, later⟩ := run_cons ran
      exact (Along.step .refl holds taken).trans (ih later)

end System

end Transition
