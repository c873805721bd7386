import ObscuraProto.Library.Transition

/-!
# Ranking the states of a transition system

A rank that some steps lower and no step raises bounds how often those steps are taken,
however they are interleaved with others.  Where some steps raise it, they bound the
others with it.
-/

namespace Transition.System

universe u v

variable {State : Type u} {Label : Type v}

/-- A rank of the states in `domain`, which the steps with a counted label use up. -/
structure Ranking (system : System State Label) (allowed : State → Label → Prop)
    (domain : State → Prop) (counted : Label → Bool) where
  rank : State → Nat
  kept : ∀ state label next, domain state → allowed state label →
    system.step state label = some next → domain next
  lowered : ∀ state label next, domain state → allowed state label →
    system.step state label = some next → counted label = true → rank next < rank state
  unraised : ∀ state label next, domain state → allowed state label →
    system.step state label = some next → rank next ≤ rank state

namespace Ranking

variable {system : System State Label} {allowed : State → Label → Prop} {domain : State → Prop}
  {counted : Label → Bool} [∀ state label, Decidable (allowed state label)]
  {origin state : State} {labels : List Label}

/-- A run takes no more counted steps than the rank of its origin allows. -/
theorem countP_add_rank_le (ranking : system.Ranking allowed domain counted)
    (inside : domain origin) (ran : system.run allowed origin labels = some state) :
    labels.countP counted + ranking.rank state ≤ ranking.rank origin := by
  induction labels generalizing origin with
  | nil =>
      cases ran
      simp
  | cons label labels ih =>
      obtain ⟨permitted, next, taken, later⟩ := run_cons ran
      have bounded := ih (ranking.kept _ _ _ inside permitted taken) later
      have unraised := ranking.unraised _ _ _ inside permitted taken
      rw [List.countP_cons]
      split
      · next lowers =>
          have lowered := ranking.lowered _ _ _ inside permitted taken lowers
          omega
      · omega

theorem domain_of_run (ranking : system.Ranking allowed domain counted)
    (inside : domain origin) (ran : system.run allowed origin labels = some state) :
    domain state :=
  (along_of_run ran).invariant domain inside ranking.kept

end Ranking

/-- A rank of the states in `domain` that the steps with a spending label use up and those
with an earning one raise by `cost` at most. -/
structure Budget (system : System State Label) (allowed : State → Label → Prop)
    (domain : State → Prop) (spends earns : Label → Bool) (cost : Nat) where
  rank : State → Nat
  kept : ∀ state label next, domain state → allowed state label →
    system.step state label = some next → domain next
  charged : ∀ state label next, domain state → allowed state label →
    system.step state label = some next →
      rank next + (spends label).toNat ≤ rank state + cost * (earns label).toNat

namespace Budget

variable {system : System State Label} {allowed : State → Label → Prop} {domain : State → Prop}
  {spends earns : Label → Bool} {cost : Nat} [∀ state label, Decidable (allowed state label)]
  {origin state : State} {labels : List Label}

/-- A run spends no more than the rank of its origin and what it earns. -/
theorem countP_add_rank_le (budget : system.Budget allowed domain spends earns cost)
    (inside : domain origin) (ran : system.run allowed origin labels = some state) :
    labels.countP spends + budget.rank state ≤
      budget.rank origin + cost * labels.countP earns := by
  induction labels generalizing origin with
  | nil =>
      cases ran
      simp
  | cons label labels ih =>
      obtain ⟨permitted, next, taken, later⟩ := run_cons ran
      have bounded := ih (budget.kept _ _ _ inside permitted taken) later
      have charged := budget.charged _ _ _ inside permitted taken
      have spent : (label :: labels).countP spends =
          labels.countP spends + (spends label).toNat := by
        rw [List.countP_cons]
        cases spends label <;> rfl
      have earned : cost * (label :: labels).countP earns =
          cost * labels.countP earns + cost * (earns label).toNat := by
        rw [List.countP_cons, Nat.mul_add]
        cases earns label <;> rfl
      omega

end Budget

end Transition.System
