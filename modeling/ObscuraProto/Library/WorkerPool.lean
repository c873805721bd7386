import Mathlib.Order.BoundedOrder.Basic
import Mathlib.Order.MinMax
import Mathlib.Data.List.Basic
import Mathlib.Data.List.Induction
import Mathlib.Tactic.Common

/-!
# A pool of workers serving a queue in order

Tasks are taken from the queue in the order they were submitted, each by the
first worker that is free; at most `capacity` workers exist and they are created
as needed.  A pool is the list of times at which its workers become free.
-/

namespace WorkerPool

universe u v

variable {Time : Type u} [LinearOrder Time] [OrderTop Time]

/-- A task: when it was submitted, and when it ends if it starts at a given time. -/
structure Task (Time : Type u) [LE Time] where
  submitted : Time
  finish : Time → Time
  start_le_finish : ∀ start, start ≤ finish start

/-- The time at which the first worker becomes free. -/
def earliest (busy : List Time) : Time :=
  busy.foldr min ⊤

/-- The start of a task in a pool, once all earlier tasks are assigned. -/
def start (capacity : Nat) (busy : List Time) (task : Task Time) : Time :=
  if busy.length < capacity then task.submitted else max task.submitted (earliest busy)

def finish (capacity : Nat) (busy : List Time) (task : Task Time) : Time :=
  task.finish (start capacity busy task)

/-- The pool after a task is assigned. -/
def assign (capacity : Nat) (busy : List Time) (task : Task Time) : List Time :=
  if busy.length < capacity then finish capacity busy task :: busy
  else finish capacity busy task :: busy.erase (earliest busy)

/-- The pool after a queue of tasks. -/
def serve (capacity : Nat) (busy : List Time) (tasks : List (Task Time)) : List Time :=
  tasks.foldl (assign capacity) busy

/-- When each task of a queue ends. -/
def finishes (capacity : Nat) (busy : List Time) : List (Task Time) → List Time
  | [] => []
  | task :: tasks =>
      finish capacity busy task :: finishes capacity (assign capacity busy task) tasks

variable {capacity : Nat} {busy : List Time} {time : Time} {task : Task Time}

theorem earliest_le_iff (nonempty : busy ≠ []) :
    earliest busy ≤ time ↔ ∃ free ∈ busy, free ≤ time := by
  induction busy with
  | nil => exact absurd rfl nonempty
  | cons free busy ih =>
      change min free (earliest busy) ≤ time ↔ _
      cases busy with
      | nil => simp [earliest]
      | cons other busy =>
          rw [min_le_iff, ih (List.cons_ne_nil other busy)]
          simp

theorem earliest_mem (nonempty : busy ≠ []) : earliest busy ∈ busy := by
  induction busy with
  | nil => exact absurd rfl nonempty
  | cons free busy ih =>
      change min free (earliest busy) ∈ _
      cases busy with
      | nil => simp [earliest]
      | cons other busy =>
          rcases min_choice free (earliest (other :: busy)) with first | rest
          · rw [first]; exact List.mem_cons_self
          · rw [rest]; exact List.mem_cons_of_mem _ (ih (List.cons_ne_nil other busy))

theorem earliest_le_of_mem {free : Time} (member : free ∈ busy) : earliest busy ≤ free :=
  (earliest_le_iff (List.ne_nil_of_mem member)).mpr ⟨free, member, le_rfl⟩

theorem earliest_le_start (full : ¬ busy.length < capacity) :
    earliest busy ≤ start capacity busy task := by
  rw [start, if_neg full]
  exact le_max_right _ _

theorem ne_nil_of_full {α : Type u} {list : List α} (positive : 0 < capacity)
    (full : ¬ list.length < capacity) : list ≠ [] := by
  intro empty
  subst empty
  exact full positive

section Full

variable (positive : 0 < capacity) (full : ¬ busy.length < capacity)
include positive full

theorem length_erase_earliest : (busy.erase (earliest busy)).length + 1 = busy.length := by
  have nonempty := ne_nil_of_full positive full
  rw [List.length_erase_of_mem (earliest_mem nonempty)]
  have := List.length_pos_iff.mpr nonempty
  omega

/-- Counting the workers busy at a time without the one that is free first. -/
theorem countP_erase_earliest (time : Time) :
    busy.countP (time < ·) =
      (busy.erase (earliest busy)).countP (time < ·) + if time < earliest busy then 1 else 0 := by
  have member := earliest_mem (ne_nil_of_full positive full)
  rw [(List.perm_cons_erase member).countP_eq, List.countP_cons]
  simp

end Full

/-- A pool never has more workers than its capacity. -/
theorem length_assign_le (positive : 0 < capacity) (room : busy.length ≤ capacity) :
    (assign capacity busy task).length ≤ capacity := by
  rw [assign]
  split
  · next less => exact less
  · next full =>
      rw [List.length_cons, length_erase_earliest positive full]
      exact room

/-- Assigning a task adds one busy worker while the task is unfinished, up to the
capacity of the pool. -/
theorem countP_assign (task : Task Time) (positive : 0 < capacity)
    (room : busy.length ≤ capacity) {unfinished : Nat}
    (counted : busy.countP (time < ·) = min capacity unfinished) :
    (assign capacity busy task).countP (time < ·) =
      min capacity (unfinished + if time < finish capacity busy task then 1 else 0) := by
  have bound := List.countP_le_length (p := (time < ·)) (l := busy)
  rw [assign]
  split
  · rw [List.countP_cons]
    simp only [decide_eq_true_eq]
    split <;> omega
  · next full =>
      have split := countP_erase_earliest positive full time
      have erased := List.countP_le_length (p := (time < ·)) (l := busy.erase (earliest busy))
      have length := length_erase_earliest positive full
      rw [List.countP_cons]
      simp only [decide_eq_true_eq]
      by_cases late : time < earliest busy
      · have unfinishedTask : time < finish capacity busy task :=
          late.trans_le ((earliest_le_start full).trans (task.start_le_finish _))
        have all : busy.countP (time < ·) = busy.length := by
          rw [List.countP_eq_length]
          intro free member
          simpa using late.trans_le (earliest_le_of_mem member)
        rw [if_pos late] at split
        rw [if_pos unfinishedTask]
        omega
      · rw [if_neg late] at split
        split <;> omega

/-- A worker is busy at a time for every unfinished task, up to the capacity of
the pool. -/
theorem countP_serve (positive : 0 < capacity) (tasks : List (Task Time))
    (room : busy.length ≤ capacity) {unfinished : Nat}
    (counted : busy.countP (time < ·) = min capacity unfinished) :
    (serve capacity busy tasks).countP (time < ·) =
      min capacity (unfinished + (finishes capacity busy tasks).countP (time < ·)) := by
  induction tasks generalizing busy unfinished with
  | nil => simpa [serve, finishes] using counted
  | cons task tasks ih =>
      have assigned := countP_assign task positive room counted
      have served := ih (length_assign_le positive room) assigned
      change (serve capacity (assign capacity busy task) tasks).countP (time < ·) = _
      rw [served, finishes, List.countP_cons, Nat.add_assoc, Nat.add_comm (ite _ _ _)]
      simp only [decide_eq_true_eq]

theorem length_serve_le (positive : 0 < capacity) (tasks : List (Task Time))
    (room : busy.length ≤ capacity) : (serve capacity busy tasks).length ≤ capacity := by
  induction tasks generalizing busy with
  | nil => exact room
  | cons task tasks ih => exact ih (length_assign_le positive room)

/-- A task starts before a limit when, from its submission on, there is a moment
before the limit with fewer unfinished earlier tasks than the pool has workers. -/
theorem start_lt_iff (positive : 0 < capacity) (tasks : List (Task Time)) {limit : Time} :
    start capacity (serve capacity [] tasks) task < limit ↔
      ∃ time, task.submitted ≤ time ∧ time < limit ∧
        (finishes capacity [] tasks).countP (time < ·) < capacity := by
  have counted : ∀ time, (serve capacity [] tasks).countP (time < ·) =
      min capacity ((finishes capacity [] tasks).countP (time < ·)) := by
    intro time
    have idle : ([] : List Time).countP (time < ·) = min capacity 0 := by simp
    simpa using countP_serve positive tasks (Nat.zero_le _) idle
  have room : (serve capacity [] tasks).length ≤ capacity :=
    length_serve_le positive tasks (Nat.zero_le _)
  generalize serve capacity [] tasks = busy at counted room
  have free_iff : ∀ time, (finishes capacity [] tasks).countP (time < ·) < capacity ↔
      busy.length < capacity ∨ earliest busy ≤ time := by
    intro time
    have bound := List.countP_le_length (p := (time < ·)) (l := busy)
    have equal := counted time
    by_cases full : busy.length < capacity
    · simp only [full, true_or, iff_true]
      omega
    · have nonempty := ne_nil_of_full positive full
      have some_free : busy.countP (time < ·) < busy.length ↔ earliest busy ≤ time := by
        rw [bound.lt_iff_ne, Ne, List.countP_eq_length, earliest_le_iff nonempty]
        simp
      simp only [full, false_or, ← some_free]
      omega
  simp only [free_iff]
  by_cases full : busy.length < capacity
  · rw [start, if_pos full]
    simp only [full, true_or, and_true]
    exact ⟨fun early => ⟨_, le_rfl, early⟩, fun ⟨_, after, before⟩ => after.trans_lt before⟩
  · rw [start, if_neg full]
    simp only [full, false_or]
    constructor
    · exact fun early => ⟨_, le_max_left _ _, early, le_max_right _ _⟩
    · exact fun ⟨_, after, before, free⟩ => (max_le after free).trans_lt before

/-- A task starts at the latest when fewer earlier tasks than the pool has workers are
unfinished. -/
theorem start_le_of_free (positive : 0 < capacity) {tasks : List (Task Time)}
    (free : (finishes capacity [] tasks).countP (time < ·) < capacity) :
    start capacity (serve capacity [] tasks) task ≤ max task.submitted time := by
  by_contra late
  rw [not_le] at late
  have early : start capacity (serve capacity [] tasks) task <
      start capacity (serve capacity [] tasks) task :=
    (start_lt_iff positive tasks).mpr
      ⟨max task.submitted time, le_max_left _ _, late, lt_of_le_of_lt ?_ free⟩
  · exact lt_irrefl _ early
  · apply List.countP_mono_left
    intro ended _ later
    simpa using lt_of_le_of_lt (le_max_right _ _) (by simpa using later)

theorem finishes_append (tasks : List (Task Time)) (last : Task Time) :
    finishes capacity busy (tasks ++ [last]) =
      finishes capacity busy tasks ++ [finish capacity (serve capacity busy tasks) last] := by
  induction tasks generalizing busy with
  | nil => rfl
  | cons task tasks ih =>
      rw [List.cons_append, finishes, ih]
      rfl

section Due

variable {Item : Type v} {items : List Item} {taskOf : Item → Task Time} {due : Item → Time}

/-- Tasks that end by `due` when they start early enough: a time after all submissions at
which fewer of them are due than the pool has workers finds no more of them unfinished. -/
theorem countP_finishes_le (positive : 0 < capacity)
    (ends : ∀ item ∈ items, ∀ begun, (taskOf item).finish begun ≤ max begun (due item))
    (submitted : ∀ item ∈ items, (taskOf item).submitted ≤ time)
    (few : items.countP (time < due ·) < capacity) :
    (finishes capacity [] (items.map taskOf)).countP (time < ·) ≤ items.countP (time < due ·) := by
  induction items using List.reverseRecOn with
  | nil => exact le_rfl
  | append_singleton items last ih =>
      have member : ∀ item ∈ items, item ∈ items ++ [last] :=
        fun _ earlier => List.mem_append_left _ earlier
      rw [List.countP_append] at few
      have before := ih (fun item earlier => ends item (member item earlier))
        (fun item earlier => submitted item (member item earlier)) (by omega)
      have isLast : last ∈ items ++ [last] := by simp
      have begun : start capacity (serve capacity [] (items.map taskOf)) (taskOf last) ≤ time :=
        (start_le_of_free positive (by omega)).trans (max_le (submitted last isLast) le_rfl)
      have ended : finish capacity (serve capacity [] (items.map taskOf)) (taskOf last) ≤
          max time (due last) :=
        (ends last isLast _).trans (max_le_max_right _ begun)
      rw [List.map_append, List.map_singleton, finishes_append, List.countP_append,
        List.countP_append]
      apply Nat.add_le_add before
      rw [List.countP_singleton, List.countP_singleton]
      by_cases late : time < finish capacity (serve capacity [] (items.map taskOf)) (taskOf last)
      · have overdue : time < due last := by
          rcases le_max_iff.mp ended with inTime | inTime
          · exact absurd late (not_lt.mpr inTime)
          · exact late.trans_le inTime
        simp [late, overdue]
      · simp [late]

/-- Tasks that never end before `due` are unfinished until then. -/
theorem le_countP_finishes
    (ends : ∀ item ∈ items, ∀ begun, due item ≤ (taskOf item).finish begun) :
    items.countP (time < due ·) ≤
      (finishes capacity busy (items.map taskOf)).countP (time < ·) := by
  induction items generalizing busy with
  | nil => exact le_rfl
  | cons item items ih =>
      rw [List.map_cons, finishes, List.countP_cons, List.countP_cons]
      apply Nat.add_le_add (ih fun other later => ends other (List.mem_cons_of_mem _ later))
      have after := ends item List.mem_cons_self (start capacity busy (taskOf item))
      by_cases late : time < due item
      · have unfinished : time < finish capacity busy (taskOf item) := late.trans_le after
        simp [late, unfinished]
      · simp [late]

end Due

end WorkerPool
