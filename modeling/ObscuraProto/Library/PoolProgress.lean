import ObscuraProto.Library.LazyPool

/-!
# Progress of a pool that is made when it is asked for

What is left to do for the tasks of a pool is a number that every step of a caller or a
worker lowers.  As long as it is not zero for the tasks taken, a worker can go on.
-/

namespace LazyPool

open Transition Processes

/-! ## The current executor -/

/-- Whether the current executor takes tasks, if there is one. -/
def State.status (state : State) : Option Bool :=
  state.current.map fun id => (state.executors[id]?.map Executor.accepting).getD false

theorem status_of_step {capacity : Nat} {state next : State} {label : Label}
    (taken : (system capacity).step state label = some next) :
    match label with
    | .get => state.status ≠ some false ∧ next.status = some true
    | .submit _ | .begin _ | .finish _ => next.status = state.status
    | .close => state.status = some true ∧ next.status = some false
    | .clear => state.status = some false ∧ next.status = none := by
  have kept : ∀ (id : Nat) (before after : Executor), state.executors[id]? = some before →
      after.accepting = before.accepting →
        (state.current.map fun current =>
          ((state.executors.set id after)[current]?.map Executor.accepting).getD false) =
        state.current.map fun current =>
          (state.executors[current]?.map Executor.accepting).getD false := by
    intro id before after found same
    congr 1
    funext current
    rw [getElem?_set_of_found found]
    split
    · next here => simp [here, found, same]
    · rfl
  cases steps_of_step taken with
  | getCurrent current found accepting => simp [State.status, current, found, accepting]
  | getNew absent => simp [State.status, absent]
  | submit fetched found accepting => exact kept _ _ _ found rfl
  | refuse fetched found refusing => rfl
  | begin found room => exact kept _ _ _ found rfl
  | finish running found => exact kept _ _ _ found rfl
  | close current found accepting =>
      simp [State.status, current, found, accepting, getElem?_set_of_found found]
  | clear current drained => simp [State.status, current, drained]

/-! ## The work left -/

/-- The steps left for a task. -/
def Stage.work : Stage → Nat
  | fetched _ => 3
  | queued _ => 2
  | running _ => 1
  | finished | refused => 0

def State.work (state : State) : Nat :=
  (state.tasks.map Stage.work).sum

/-- Only a new task adds work. -/
theorem work_of_step {capacity : Nat} {state next : State} {label : Label}
    (sound : Sound capacity state) (taken : (system capacity).step state label = some next) :
    match label with
    | .get => True
    | .submit _ | .begin _ | .finish _ => next.work < state.work
    | .close | .clear => next.work = state.work := by
  cases steps_of_step taken with
  | getCurrent | getNew => trivial
  | @submit task id executor fetched =>
      have used := sum_map_set Stage.work fetched (.queued id)
      simp only [State.work, Stage.work] at used ⊢
      omega
  | refuse fetched =>
      have used := sum_map_set Stage.work fetched .refused
      simp only [State.work, Stage.work] at used ⊢
      omega
  | @begin id task accepting queue running found room =>
      have isQueued : state.tasks[task]? = some (.queued id) := by
        rw [sound.queued, State.queueAt, part_of_found found]
        exact List.mem_cons_self
      have used := sum_map_set Stage.work isQueued (.running id)
      simp only [State.work, Stage.work] at used ⊢
      omega
  | finish running found =>
      have used := sum_map_set Stage.work running .finished
      simp only [State.work, Stage.work] at used ⊢
      omega
  | close | clear => rfl

/-- A new task adds the work of one. -/
theorem work_of_get {capacity : Nat} {state next : State}
    (taken : (system capacity).step state .get = some next) : next.work = state.work + 3 := by
  cases steps_of_step taken with
  | getCurrent | getNew => simp [State.work, Stage.work]

theorem work_of_closing {capacity : Nat} {state next : State} {label : Label}
    (closing : label = .close ∨ label = .clear)
    (taken : (system capacity).step state label = some next) : next.work = state.work := by
  rcases closing with rfl | rfl
  · cases steps_of_step taken with
    | close => rfl
  · cases steps_of_step taken with
    | clear => rfl

/-- A task runs until it is finished, and its executor is not forgotten before. -/
theorem running_of_step {capacity : Nat} {state next : State} {label : Label} {task id : Nat}
    (sound : Sound capacity state) (taken : (system capacity).step state label = some next)
    (isRunning : state.tasks[task]? = some (.running id)) (unfinished : label ≠ .finish task) :
    next.tasks[task]? = some (.running id) ∧ label ≠ .clear := by
  have moved : ∀ {other : Nat} {before : Stage} (after : Stage),
      state.tasks[other]? = some before → task ≠ other →
        (state.tasks.set other after)[task]? = some (.running id) := by
    intro other before after known apart
    rw [getElem?_set_of_found known, if_neg apart, isRunning]
  cases steps_of_step taken with
  | getCurrent | getNew =>
      refine ⟨?_, by simp⟩
      rw [List.getElem?_append_left (List.getElem?_eq_some_iff.mp isRunning).1, isRunning]
  | submit fetched | refuse fetched =>
      refine ⟨moved _ fetched ?_, by simp⟩
      rintro rfl
      rw [isRunning] at fetched
      cases fetched
  | @begin place other accepting queue running found room =>
      have isQueued : state.tasks[other]? = some (.queued place) := by
        rw [sound.queued, State.queueAt, part_of_found found]
        exact List.mem_cons_self
      refine ⟨moved _ isQueued ?_, by simp⟩
      rintro rfl
      rw [isRunning] at isQueued
      cases isQueued
  | finish running found =>
      refine ⟨moved _ running ?_, by simp⟩
      rintro rfl
      exact unfinished rfl
  | close => exact ⟨isRunning, by simp⟩
  | @clear current isCurrent drained =>
      have listed := (sound.running id task).mp isRunning
      rw [State.runningAt] at listed
      cases found : state.executors[id]? with
      | none => simp [found] at listed
      | some executor =>
          have busy : executor ≠ ⟨false, [], []⟩ := by
            rintro rfl
            simp [found] at listed
          have here := sound.current_of_busy found busy
          rw [isCurrent] at here
          cases here
          rw [drained] at found
          exact absurd (Option.some.inj found).symm busy

/-- While a closed executor is not forgotten, one of its workers can go on, or it can be
forgotten. -/
theorem exists_steps {capacity : Nat} {state : State} (sound : Sound capacity state)
    (positive : 0 < capacity) (closed : state.status = some false) :
    ∃ label next, Steps capacity state label next ∧
      ((∃ id, label = .begin id) ∨ (∃ task, label = .finish task) ∨ label = .clear) := by
  obtain ⟨id, current, refusing⟩ := Option.map_eq_some_iff.mp closed
  have found := List.getElem?_eq_getElem (sound.known id current)
  obtain ⟨⟨accepting, queue, running⟩, found⟩ : ∃ executor, state.executors[id]? = some executor :=
    ⟨_, found⟩
  simp only [found, Option.map_some, Option.getD_some] at refusing
  subst refusing
  cases running with
  | cons task running =>
      have isRunning : state.tasks[task]? = some (.running id) := by
        rw [sound.running, State.runningAt, part_of_found found]
        exact List.mem_cons_self
      exact ⟨_, _, .finish isRunning found, .inr (.inl ⟨task, rfl⟩)⟩
  | nil =>
      cases queue with
      | cons task queue => exact ⟨_, _, .begin found positive, .inl ⟨id, rfl⟩⟩
      | nil => exact ⟨_, _, .clear current found, .inr (.inr rfl)⟩

/-- While a task that was taken is not finished, a worker can go on. -/
theorem exists_worker_steps {capacity : Nat} {state : State} {task : Nat}
    (sound : Sound capacity state) (positive : 0 < capacity) (taken : task ∈ state.submitted)
    (unfinished : state.tasks[task]? ≠ some .finished) :
    ∃ label next, Steps capacity state label next ∧
      ((∃ id, label = .begin id) ∨ ∃ task, label = .finish task) := by
  obtain ⟨stage, known, handed⟩ := sound.taken task taken
  cases stage with
  | fetched | refused => cases handed
  | finished => exact absurd known unfinished
  | running id =>
      have listed := (sound.running id task).mp known
      rw [State.runningAt] at listed
      cases found : state.executors[id]? with
      | none => simp [found] at listed
      | some executor => exact ⟨_, _, .finish known found, .inr ⟨task, rfl⟩⟩
  | queued id =>
      have listed := (sound.queued id task).mp known
      rw [State.queueAt] at listed
      cases found : state.executors[id]? with
      | none => simp [found] at listed
      | some executor =>
          obtain ⟨accepting, queue, running⟩ := executor
          cases queue with
          | nil => simp [found] at listed
          | cons first queue =>
              cases running with
              | nil => exact ⟨_, _, .begin found positive, .inl ⟨id, rfl⟩⟩
              | cons other running =>
                  have isRunning : state.tasks[other]? = some (.running id) := by
                    rw [sound.running, State.runningAt, part_of_found found]
                    exact List.mem_cons_self
                  exact ⟨_, _, .finish isRunning found, .inr ⟨other, rfl⟩⟩

end LazyPool
