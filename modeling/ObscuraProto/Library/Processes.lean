import Mathlib.Algebra.Order.Ring.Nat
import Mathlib.Tactic.Common

/-!
# Processes kept in a list

The processes of a system are named by their position in a list.  A step replaces
one entry, and a new process is added at the end.
-/

namespace Processes

universe u

variable {Process : Type u} {processes : List Process} {id other : Nat}
  {process after found fresh : Process}

/-- Looking up after a step of process `id`. -/
theorem getElem?_set_of_found (known : processes[id]? = some process) (after : Process)
    (other : Nat) :
    (processes.set id after)[other]? = if other = id then some after else processes[other]? := by
  have bound : id < processes.length := (List.getElem?_eq_some_iff.mp known).1
  rw [List.getElem?_set]
  by_cases same : other = id
  · simp [same, bound]
  · simp [same, Ne.symm same]

/-- An entry after a step of process `id` is the new one or was there before. -/
theorem of_getElem?_set (entry : (processes.set id after)[other]? = some found) :
    other = id ∧ found = after ∨ other ≠ id ∧ processes[other]? = some found := by
  rw [List.getElem?_set] at entry
  split at entry
  · next same =>
      split at entry
      · cases entry; exact .inl ⟨same.symm, rfl⟩
      · cases entry
  · next apart => exact .inr ⟨Ne.symm apart, entry⟩

/-- Looking up after a process was added. -/
theorem getElem?_append_fresh (processes : List Process) (fresh : Process) (other : Nat) :
    (processes ++ [fresh])[other]? =
      if other = processes.length then some fresh else processes[other]? := by
  rcases Nat.lt_trichotomy other processes.length with old | rfl | beyond
  · rw [List.getElem?_append_left old, if_neg (Nat.ne_of_lt old)]
  · rw [List.getElem?_concat_length, if_pos rfl]
  · rw [if_neg (Nat.ne_of_gt beyond), List.getElem?_eq_none (by simp; omega),
      List.getElem?_eq_none (by omega)]

/-- An entry after a process was added is the new one or was there before. -/
theorem of_getElem?_append (entry : (processes ++ [fresh])[other]? = some found) :
    processes[other]? = some found ∨ other = processes.length ∧ found = fresh := by
  rw [getElem?_append_fresh] at entry
  split at entry
  · next last => cases entry; exact .inr ⟨last, rfl⟩
  · exact .inl entry

/-- A measure summed over the processes, after a step of process `id`. -/
theorem sum_map_set (measure : Process → Nat) (known : processes[id]? = some process)
    (after : Process) :
    ((processes.set id after).map measure).sum + measure process =
      (processes.map measure).sum + measure after := by
  induction processes generalizing id with
  | nil => cases known
  | cons first rest ih =>
      cases id with
      | zero =>
          cases known
          simp only [List.set_cons_zero, List.map_cons, List.sum_cons]
          omega
      | succ id =>
          have later := ih known
          simp only [List.set_cons_succ, List.map_cons, List.sum_cons]
          omega

end Processes
