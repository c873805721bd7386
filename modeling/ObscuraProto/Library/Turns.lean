import Mathlib.Data.List.Pairwise

/-!
# Calls taken in turn

Calls are made, begin and end.  Related calls are taken in turn when a call begins only
after the related ones made before it have ended.
-/

namespace Turns

universe u

variable {Call : Type u}

structure TakenInTurn (related : Call → Call → Prop) (ended : Call → Prop)
    (made begun : List Call) : Prop where
  known : ∀ call ∈ begun, call ∈ made
  apart : made.Pairwise fun first second => related first second → second ∈ begun → ended first
  inOrder : begun.Pairwise fun first second =>
    related first second → [first, second].Sublist made

variable {related closer : Call → Call → Prop} {ended finished : Call → Prop}
  {made begun : List Call} {first second call : Call}

theorem nil_takenInTurn : TakenInTurn related ended [] [] :=
  ⟨by simp, List.Pairwise.nil, List.Pairwise.nil⟩

/-- Of two members of a list, one comes first. -/
theorem pair_sublist_or (firstKnown : first ∈ made) (secondKnown : second ∈ made)
    (different : first ≠ second) :
    [first, second].Sublist made ∨ [second, first].Sublist made := by
  obtain ⟨ahead, behind, rfl⟩ := List.append_of_mem secondKnown
  rcases List.mem_append.mp firstKnown with before | after
  · exact .inl ((List.singleton_sublist.mpr before).append
      (List.singleton_sublist.mpr (List.mem_cons_self ..)))
  · rcases List.mem_cons.mp after with same | after
    · exact absurd same different
    · exact .inr (((List.singleton_sublist.mpr after).cons_cons second).trans
        (List.sublist_append_right ..))

/-- The last member of a list comes after the others. -/
theorem pair_sublist_concat (known : first ∈ made) (second : Call) :
    [first, second].Sublist (made ++ [second]) :=
  (List.singleton_sublist.mpr known).append (List.Sublist.refl [second])

namespace TakenInTurn

theorem ended_of_pair (inTurn : TakenInTurn related ended made begun)
    (pair : [first, second].Sublist made) (together : related first second)
    (started : second ∈ begun) : ended first :=
  List.pairwise_iff_forall_sublist.mp inTurn.apart pair together started

/-- More calls may have ended, and fewer may be related. -/
theorem mono (inTurn : TakenInTurn related ended made begun)
    (less : ∀ first ∈ made, ∀ second ∈ made, closer first second → related first second)
    (more : ∀ call ∈ made, ended call → finished call) :
    TakenInTurn closer finished made begun where
  known := inTurn.known
  apart := inTurn.apart.imp_of_mem fun firstKnown secondKnown ends together started =>
    more _ firstKnown (ends (less _ firstKnown _ secondKnown together) started)
  inOrder := inTurn.inOrder.imp_of_mem fun firstBegun secondBegun pair together =>
    pair (less _ (inTurn.known _ firstBegun) _ (inTurn.known _ secondBegun) together)

theorem make (inTurn : TakenInTurn related ended made begun) (fresh : call ∉ begun) :
    TakenInTurn related ended (made ++ [call]) begun where
  known other started := List.mem_append_left _ (inTurn.known other started)
  apart := by
    refine List.pairwise_append.mpr ⟨inTurn.apart, List.pairwise_singleton _ _, ?_⟩
    intro first _ last isLast together started
    rw [List.mem_singleton.mp isLast] at started
    exact absurd started fresh
  inOrder := inTurn.inOrder.imp fun pair together =>
    (pair together).trans (List.sublist_append_left ..)

/-- A call begins when the related ones made before it have ended. -/
theorem begin (inTurn : TakenInTurn related ended made begun)
    (symmetric : ∀ first second, related first second → related second first)
    (asked : call ∈ made) (unfinished : ¬ ended call) (fresh : call ∉ begun)
    (free : ∀ first, [first, call].Sublist made → related first call → ended first) :
    TakenInTurn related ended made (begun ++ [call]) where
  known other started := by
    rcases List.mem_append.mp started with earlier | last
    · exact inTurn.known other earlier
    · exact List.mem_singleton.mp last ▸ asked
  apart := by
    apply List.pairwise_iff_forall_sublist.mpr
    intro first second pair together started
    rcases List.mem_append.mp started with earlier | last
    · exact inTurn.ended_of_pair pair together earlier
    · rw [List.mem_singleton.mp last] at pair together
      exact free first pair together
  inOrder := by
    refine List.pairwise_append.mpr ⟨inTurn.inOrder, List.pairwise_singleton _ _, ?_⟩
    intro first started last isLast together
    rw [List.mem_singleton.mp isLast] at together ⊢
    rcases pair_sublist_or (inTurn.known first started) asked
      (fun same => fresh (same ▸ started)) with before | after
    · exact before
    · -- A related call made later would have waited for this one.
      exact absurd (inTurn.ended_of_pair after (symmetric _ _ together) started) unfinished

end TakenInTurn

end Turns
