import Mathlib.Data.List.Nodup
import ObscuraProto.Library.Processes
import ObscuraProto.Library.Transition

/-!
# A pool that is made when it is asked for

An executor is made when somebody asks for one and there is none.  It takes tasks until
it is closed, runs what it has taken, and is then forgotten, so that a later caller gets
a new one.  A caller may still hold an executor that has been closed or forgotten.
-/

namespace LazyPool

open Transition Processes

structure Executor where
  accepting : Bool := true
  queue : List Nat := []
  running : List Nat := []
  deriving DecidableEq

inductive Stage where
  /-- The caller holds the executor and has not handed the task over. -/
  | fetched (executor : Nat)
  | queued (executor : Nat)
  | running (executor : Nat)
  | finished
  /-- The executor was closed. -/
  | refused
  deriving DecidableEq

/-- An executor has taken the task. -/
def Stage.Taken : Stage → Prop
  | queued _ | running _ | finished => True
  | fetched _ | refused => False

structure State where
  executors : List Executor := []
  current : Option Nat := none
  tasks : List Stage := []
  /-- The tasks taken, in order. -/
  submitted : List Nat := []
  /-- The tasks begun, in order. -/
  begun : List Nat := []
  deriving DecidableEq

inductive Label where
  /-- A new task's caller gets the current executor, or a new one if there is none. -/
  | get
  | submit (task : Nat)
  | begin (executor : Nat)
  | finish (task : Nat)
  | close
  /-- The closed executor has run all its tasks and is forgotten. -/
  | clear
  deriving DecidableEq

namespace State

def queueAt (state : State) (id : Nat) : List Nat :=
  (state.executors[id]?.map Executor.queue).getD []

def runningAt (state : State) (id : Nat) : List Nat :=
  (state.executors[id]?.map Executor.running).getD []

/-- The queue of the current executor. -/
def queue (state : State) : List Nat :=
  match state.current with
  | some id => state.queueAt id
  | none => []

def step (capacity : Nat) (state : State) : Label → Option State
  | .get =>
      match state.current with
      | some id =>
          match state.executors[id]? with
          | some executor =>
              if executor.accepting then some { state with tasks := state.tasks ++ [.fetched id] }
              else none
          | none => none
      | none =>
          some { state with
            executors := state.executors ++ [{}]
            current := some state.executors.length
            tasks := state.tasks ++ [.fetched state.executors.length] }
  | .submit task =>
      match state.tasks[task]? with
      | some (.fetched id) =>
          match state.executors[id]? with
          | some executor =>
              if executor.accepting then
                some { state with
                  executors := state.executors.set id
                    { executor with queue := executor.queue ++ [task] }
                  tasks := state.tasks.set task (.queued id)
                  submitted := state.submitted ++ [task] }
              else some { state with tasks := state.tasks.set task .refused }
          | none => none
      | _ => none
  | .begin id =>
      match state.executors[id]? with
      | some ⟨accepting, task :: queue, running⟩ =>
          if running.length < capacity then
            some { state with
              executors := state.executors.set id ⟨accepting, queue, running ++ [task]⟩
              tasks := state.tasks.set task (.running id)
              begun := state.begun ++ [task] }
          else none
      | _ => none
  | .finish task =>
      match state.tasks[task]? with
      | some (.running id) =>
          match state.executors[id]? with
          | some executor =>
              some { state with
                executors := state.executors.set id
                  { executor with running := executor.running.erase task }
                tasks := state.tasks.set task .finished }
          | none => none
      | _ => none
  | .close =>
      match state.current with
      | some id =>
          match state.executors[id]? with
          | some executor =>
              if executor.accepting then
                some { state with
                  executors := state.executors.set id { executor with accepting := false } }
              else none
          | none => none
      | none => none
  | .clear =>
      match state.current with
      | some id =>
          match state.executors[id]? with
          | some ⟨false, [], []⟩ => some { state with current := none }
          | _ => none
      | none => none

end State

/-- A pool of at most `capacity` workers. -/
def system (capacity : Nat) : System State Label where
  initial := {}
  step := State.step capacity

/-! ## What a step can do -/

inductive Steps (capacity : Nat) (state : State) : Label → State → Prop
  | getCurrent {id : Nat} {executor : Executor} (current : state.current = some id)
      (found : state.executors[id]? = some executor) (accepting : executor.accepting = true) :
      Steps capacity state .get { state with tasks := state.tasks ++ [.fetched id] }
  | getNew (absent : state.current = none) :
      Steps capacity state .get
        { state with
          executors := state.executors ++ [{}]
          current := some state.executors.length
          tasks := state.tasks ++ [.fetched state.executors.length] }
  | submit {task id : Nat} {executor : Executor} (fetched : state.tasks[task]? = some (.fetched id))
      (found : state.executors[id]? = some executor) (accepting : executor.accepting = true) :
      Steps capacity state (.submit task)
        { state with
          executors := state.executors.set id { executor with queue := executor.queue ++ [task] }
          tasks := state.tasks.set task (.queued id)
          submitted := state.submitted ++ [task] }
  | refuse {task id : Nat} {executor : Executor} (fetched : state.tasks[task]? = some (.fetched id))
      (found : state.executors[id]? = some executor) (refusing : executor.accepting = false) :
      Steps capacity state (.submit task)
        { state with tasks := state.tasks.set task .refused }
  | begin {id task : Nat} {accepting : Bool} {queue running : List Nat}
      (found : state.executors[id]? = some ⟨accepting, task :: queue, running⟩)
      (room : running.length < capacity) :
      Steps capacity state (.begin id)
        { state with
          executors := state.executors.set id ⟨accepting, queue, running ++ [task]⟩
          tasks := state.tasks.set task (.running id)
          begun := state.begun ++ [task] }
  | finish {task id : Nat} {executor : Executor} (running : state.tasks[task]? = some (.running id))
      (found : state.executors[id]? = some executor) :
      Steps capacity state (.finish task)
        { state with
          executors := state.executors.set id
            { executor with running := executor.running.erase task }
          tasks := state.tasks.set task .finished }
  | close {id : Nat} {executor : Executor} (current : state.current = some id)
      (found : state.executors[id]? = some executor) (accepting : executor.accepting = true) :
      Steps capacity state .close
        { state with executors := state.executors.set id { executor with accepting := false } }
  | clear {id : Nat} (current : state.current = some id)
      (drained : state.executors[id]? = some ⟨false, [], []⟩) :
      Steps capacity state .clear { state with current := none }

theorem Steps.step {capacity : Nat} {state next : State} {label : Label}
    (steps : Steps capacity state label next) :
    (system capacity).step state label = some next := by
  cases steps <;> simp [system, State.step, *]

theorem steps_of_step {capacity : Nat} {state next : State} {label : Label}
    (taken : (system capacity).step state label = some next) : Steps capacity state label next := by
  cases label with
  | get =>
      simp only [system, State.step] at taken
      split at taken
      · next current =>
          split at taken
          · next found =>
              split at taken
              · next accepting => cases taken; exact .getCurrent current found accepting
              · cases taken
          · cases taken
      · next absent => cases taken; exact .getNew absent
  | submit task =>
      simp only [system, State.step] at taken
      split at taken
      · next fetched =>
          split at taken
          · next found =>
              split at taken
              · next accepting => cases taken; exact .submit fetched found accepting
              · next refusing =>
                  cases taken
                  exact .refuse fetched found (by simpa using refusing)
          · cases taken
      · cases taken
  | begin id =>
      simp only [system, State.step] at taken
      split at taken
      · next found =>
          split at taken
          · next room => cases taken; exact .begin found room
          · cases taken
      · cases taken
  | finish task =>
      simp only [system, State.step] at taken
      split at taken
      · next running =>
          split at taken
          · next found => cases taken; exact .finish running found
          · cases taken
      · cases taken
  | close =>
      simp only [system, State.step] at taken
      split at taken
      · next current =>
          split at taken
          · next found =>
              split at taken
              · next accepting => cases taken; exact .close current found accepting
              · cases taken
          · cases taken
      · cases taken
  | clear =>
      simp only [system, State.step] at taken
      split at taken
      · next current =>
          split at taken
          · next drained => cases taken; exact .clear current drained
          · cases taken
      · cases taken

/-! ## Where the tasks are -/

section Lookup

variable {executors : List Executor} {id : Nat} {before after : Executor}
  {part : Executor → List Nat}

theorem part_of_found (found : executors[id]? = some before) :
    (executors[id]?.map part).getD [] = part before := by
  rw [found]
  rfl

theorem part_set (found : executors[id]? = some before) (after : Executor) (other : Nat) :
    ((executors.set id after)[other]?.map part).getD [] =
      if other = id then part after else (executors[other]?.map part).getD [] := by
  rw [getElem?_set_of_found found]
  split <;> rfl

/-- A part of an executor that a step leaves alone. -/
theorem part_set_of_same (found : executors[id]? = some before) (same : part after = part before)
    (other : Nat) :
    ((executors.set id after)[other]?.map part).getD [] = (executors[other]?.map part).getD [] := by
  rw [part_set found]
  split
  · next here => rw [here, same, part_of_found found]
  · rfl

theorem part_append {fresh : Executor} (empty : part fresh = []) (other : Nat) :
    ((executors ++ [fresh])[other]?.map part).getD [] = (executors[other]?.map part).getD [] := by
  rw [getElem?_append_fresh]
  split
  · next last => simp [last, empty]
  · rfl

/-- A task comes to a new stage, and the executor it leaves or joins changes with it. -/
theorem mem_part_move {tasks : List Stage} {holding : Nat → Stage} {task : Nat}
    {stage moved : Stage}
    (placed : ∀ other task, tasks[task]? = some (holding other) ↔
      task ∈ (executors[other]?.map part).getD [])
    (found : executors[id]? = some before) (known : tasks[task]? = some stage)
    (own : moved = holding id ↔ task ∈ part after)
    (rest : ∀ other ≠ task, other ∈ part after ↔ other ∈ part before)
    (apart : ∀ other ≠ id, stage ≠ holding other ∧ moved ≠ holding other) (other number : Nat) :
    (tasks.set task moved)[number]? = some (holding other) ↔
      number ∈ ((executors.set id after)[other]?.map part).getD [] := by
  rw [part_set found, getElem?_set_of_found known]
  by_cases here : other = id
  · subst here
    by_cases isTask : number = task
    · simp [isTask, own]
    · have old := placed other number
      rw [part_of_found found] at old
      simp [isTask, rest number isTask, old]
  · by_cases isTask : number = task
    · subst isTask
      have elsewhere : number ∉ (executors[other]?.map part).getD [] := by
        rw [← placed, known]
        simpa using (apart other here).1
      simp [here, elsewhere, (apart other here).2]
    · simp [here, isTask, placed]

end Lookup

/-- Only the current executor has anything to do; every task taken is in one place, and
they are begun in the order in which they were taken. -/
structure Sound (capacity : Nat) (state : State) : Prop where
  known : ∀ id, state.current = some id → id < state.executors.length
  idle : ∀ id executor, state.executors[id]? = some executor → state.current ≠ some id →
    executor = ⟨false, [], []⟩
  workers : ∀ id, (state.runningAt id).length ≤ capacity
  queued : ∀ id task, state.tasks[task]? = some (.queued id) ↔ task ∈ state.queueAt id
  running : ∀ id task, state.tasks[task]? = some (.running id) ↔ task ∈ state.runningAt id
  runningNodup : ∀ id, (state.runningAt id).Nodup
  taken : ∀ task ∈ state.submitted, ∃ stage, state.tasks[task]? = some stage ∧ stage.Taken
  once : state.submitted.Nodup
  order : state.submitted = state.begun ++ state.queue

namespace Sound

variable {capacity : Nat} {state next : State} {id task : Nat} {executor : Executor}

theorem current_of_busy (sound : Sound capacity state)
    (found : state.executors[id]? = some executor) (busy : executor ≠ ⟨false, [], []⟩) :
    state.current = some id := by
  by_contra other
  exact busy (sound.idle id executor found other)

/-- A task stays taken when it moves on. -/
theorem taken_set (sound : Sound capacity state) {stage : Stage}
    (known : state.tasks[task]? = some stage) {after : Stage} (handed : after.Taken) :
    ∀ other ∈ state.submitted, ∃ stage, (state.tasks.set task after)[other]? = some stage ∧
      stage.Taken := by
  intro other member
  rw [getElem?_set_of_found known]
  split
  · exact ⟨after, rfl, handed⟩
  · exact sound.taken other member

/-- A caller gets an executor. -/
theorem get (sound : Sound capacity state) (fetched : Nat) {executors : List Executor}
    {current : Option Nat} (known : ∀ id, current = some id → id < executors.length)
    (idle : ∀ id executor, executors[id]? = some executor → current ≠ some id →
      executor = ⟨false, [], []⟩)
    (queues : ∀ id, (executors[id]?.map Executor.queue).getD [] = state.queueAt id)
    (workers : ∀ id, (executors[id]?.map Executor.running).getD [] = state.runningAt id)
    (order : state.submitted = state.begun ++ State.queue { state with executors, current }) :
    Sound capacity
      { state with executors, current, tasks := state.tasks ++ [.fetched fetched] } where
  known := known
  idle := idle
  workers id := by
    rw [State.runningAt, workers]
    exact sound.workers id
  queued id task := by
    rw [State.queueAt, queues, ← sound.queued, getElem?_append_fresh]
    split
    · next last => simp [last]
    · rfl
  running id task := by
    rw [State.runningAt, workers, ← sound.running, getElem?_append_fresh]
    split
    · next last => simp [last]
    · rfl
  runningNodup id := by
    rw [State.runningAt, workers]
    exact sound.runningNodup id
  taken task member := by
    obtain ⟨stage, known, handed⟩ := sound.taken task member
    refine ⟨stage, ?_, handed⟩
    rw [List.getElem?_append_left (List.getElem?_eq_some_iff.mp known).1, known]
  once := sound.once
  order := order

theorem getNew (sound : Sound capacity state) (absent : state.current = none) :
    Sound capacity
      { state with
        executors := state.executors ++ [{}]
        current := some state.executors.length
        tasks := state.tasks ++ [.fetched state.executors.length] } := by
  have queues : ∀ id, ((state.executors ++ [({} : Executor)])[id]?.map Executor.queue).getD [] =
      state.queueAt id := part_append rfl
  apply sound.get _ _ _ queues (part_append rfl)
  · have order := sound.order
    simp only [State.queue, absent] at order
    have fresh := queues state.executors.length
    simp only [State.queue, State.queueAt, fresh, order]
    simp
  · intro id isCurrent
    cases isCurrent
    simp
  · intro id executor found other
    rcases of_getElem?_append found with old | ⟨rfl, -⟩
    · exact sound.idle id executor old (by simp [absent])
    · exact absurd rfl other

theorem known_set (sound : Sound capacity state) (after : Executor) :
    ∀ other, state.current = some other → other < (state.executors.set id after).length := by
  intro other current
  rw [List.length_set]
  exact sound.known other current

theorem idle_set (sound : Sound capacity state) (current : state.current = some id)
    (after : Executor) : ∀ other executor, (state.executors.set id after)[other]? = some executor →
      state.current ≠ some other → executor = ⟨false, [], []⟩ := by
  intro other executor found forgotten
  rcases of_getElem?_set found with ⟨rfl, -⟩ | ⟨-, old⟩
  · exact absurd current forgotten
  · exact sound.idle other executor old forgotten

theorem submit (sound : Sound capacity state) (fetched : state.tasks[task]? = some (.fetched id))
    (found : state.executors[id]? = some executor) (accepting : executor.accepting = true) :
    Sound capacity
      { state with
        executors := state.executors.set id { executor with queue := executor.queue ++ [task] }
        tasks := state.tasks.set task (.queued id)
        submitted := state.submitted ++ [task] } := by
  have current := sound.current_of_busy found (by rintro rfl; cases accepting)
  have fresh : task ∉ state.submitted := by
    intro member
    obtain ⟨stage, known, handed⟩ := sound.taken task member
    rw [fetched] at known
    cases known
    exact handed
  constructor
  · exact sound.known_set _
  · exact sound.idle_set current _
  · intro other
    rw [State.runningAt, part_set_of_same found (by rfl)]
    exact sound.workers other
  · exact mem_part_move sound.queued found fetched (by simp) (fun other apart => by simp [apart])
      fun other apart => by simp [Ne.symm apart]
  · intro other moved
    rw [State.runningAt, part_set_of_same found (by rfl), getElem?_set_of_found fetched,
      ← State.runningAt, ← sound.running]
    split
    · next isTask => simp [isTask, fetched]
    · rfl
  · intro other
    rw [State.runningAt, part_set_of_same found (by rfl)]
    exact sound.runningNodup other
  · intro other member
    rcases List.mem_append.mp member with earlier | last
    · exact sound.taken_set fetched (show (Stage.queued id).Taken from trivial) other earlier
    · rw [List.mem_singleton.mp last, getElem?_set_of_found fetched, if_pos rfl]
      exact ⟨_, rfl, trivial⟩
  · exact List.nodup_append.mpr ⟨sound.once, List.nodup_singleton _, fun other member last isLast =>
      fun same => fresh ((List.mem_singleton.mp isLast) ▸ same ▸ member)⟩
  · have order := sound.order
    simp only [State.queue, current, State.queueAt, part_of_found found] at order
    simp only [State.queue, current, State.queueAt, part_set found, if_pos, order,
      List.append_assoc]

theorem refuse (sound : Sound capacity state) (fetched : state.tasks[task]? = some (.fetched id)) :
    Sound capacity { state with tasks := state.tasks.set task .refused } := by
  constructor
  · exact sound.known
  · exact sound.idle
  · exact sound.workers
  · intro other moved
    change _ ↔ moved ∈ state.queueAt other
    rw [getElem?_set_of_found fetched, ← sound.queued]
    split
    · next isTask => simp [isTask, fetched]
    · rfl
  · intro other moved
    change _ ↔ moved ∈ state.runningAt other
    rw [getElem?_set_of_found fetched, ← sound.running]
    split
    · next isTask => simp [isTask, fetched]
    · rfl
  · exact sound.runningNodup
  · intro other member
    rw [getElem?_set_of_found fetched]
    split
    · next isTask =>
        obtain ⟨stage, known, handed⟩ := sound.taken other member
        rw [isTask, fetched] at known
        cases known
        cases handed
    · exact sound.taken other member
  · exact sound.once
  · exact sound.order

/-- A worker takes the first task of a queue. -/
theorem begin (sound : Sound capacity state) {accepting : Bool} {queue running : List Nat}
    (found : state.executors[id]? = some ⟨accepting, task :: queue, running⟩)
    (room : running.length < capacity) :
    Sound capacity
      { state with
        executors := state.executors.set id ⟨accepting, queue, running ++ [task]⟩
        tasks := state.tasks.set task (.running id)
        begun := state.begun ++ [task] } := by
  have current := sound.current_of_busy found (by simp)
  have order := sound.order
  simp only [State.queue, current, State.queueAt, part_of_found found] at order
  have isQueued : state.tasks[task]? = some (.queued id) := by
    rw [sound.queued, State.queueAt, part_of_found found]
    exact List.mem_cons_self
  have first : task ∉ queue := by
    have once := sound.once
    rw [order] at once
    exact (List.nodup_cons.mp (List.nodup_append.mp once).2.1).1
  constructor
  · exact sound.known_set _
  · exact sound.idle_set current _
  · intro other
    rw [State.runningAt, part_set found]
    split
    · rw [List.length_append, List.length_singleton]
      exact room
    · exact sound.workers other
  · exact mem_part_move sound.queued found isQueued (by simp [first])
      (fun other apart => by simp [apart]) fun other apart => by simp [Ne.symm apart]
  · exact mem_part_move sound.running found isQueued (by simp)
      (fun other apart => by simp [apart]) fun other apart => by simp [Ne.symm apart]
  · intro other
    rw [State.runningAt, part_set found]
    split
    · have alone := sound.runningNodup id
      rw [State.runningAt, part_of_found found] at alone
      refine List.nodup_append.mpr ⟨alone, List.nodup_singleton _, ?_⟩
      rintro active member last isLast rfl
      have isRunning := (sound.running id active).mpr (by
        rw [State.runningAt, part_of_found found]
        exact member)
      rw [List.mem_singleton.mp isLast, isQueued] at isRunning
      cases isRunning
    · exact sound.runningNodup other
  · exact sound.taken_set isQueued trivial
  · exact sound.once
  · simp only [State.queue, current, State.queueAt, part_set found, if_pos, order,
      List.append_assoc, List.singleton_append]

theorem finish (sound : Sound capacity state) (isRunning : state.tasks[task]? = some (.running id))
    (found : state.executors[id]? = some executor) :
    Sound capacity
      { state with
        executors := state.executors.set id
          { executor with running := executor.running.erase task }
        tasks := state.tasks.set task .finished } := by
  have listed := (sound.running id task).mp isRunning
  have alone := sound.runningNodup id
  rw [State.runningAt, part_of_found found] at listed alone
  have current := sound.current_of_busy found (by rintro rfl; cases listed)
  constructor
  · exact sound.known_set _
  · exact sound.idle_set current _
  · intro other
    rw [State.runningAt, part_set found]
    split
    · have workers := sound.workers id
      rw [State.runningAt, part_of_found found] at workers
      exact (List.erase_sublist.length_le).trans workers
    · exact sound.workers other
  · intro other moved
    rw [State.queueAt, part_set_of_same found (by rfl), getElem?_set_of_found isRunning,
      ← State.queueAt, ← sound.queued]
    split
    · next isTask => simp [isTask, isRunning]
    · rfl
  · exact mem_part_move sound.running found isRunning (by simp [alone.mem_erase_iff])
      (fun other apart => by simp [alone.mem_erase_iff, apart])
      fun other apart => by simp [Ne.symm apart]
  · intro other
    rw [State.runningAt, part_set found]
    split
    · exact alone.erase _
    · exact sound.runningNodup other
  · exact sound.taken_set isRunning trivial
  · exact sound.once
  · have order := sound.order
    simp only [State.queue, current, State.queueAt, part_of_found found] at order
    simp only [State.queue, current, State.queueAt, part_set found, if_pos, order]

theorem close (sound : Sound capacity state) (current : state.current = some id)
    (found : state.executors[id]? = some executor) :
    Sound capacity
      { state with executors := state.executors.set id { executor with accepting := false } } := by
  have queues : ∀ other, State.queueAt { state with
      executors := state.executors.set id { executor with accepting := false } } other =
        state.queueAt other := part_set_of_same found rfl
  have workers : ∀ other, State.runningAt { state with
      executors := state.executors.set id { executor with accepting := false } } other =
        state.runningAt other := part_set_of_same found rfl
  constructor
  · exact sound.known_set _
  · exact sound.idle_set current _
  · intro other
    rw [workers]
    exact sound.workers other
  · intro other moved
    rw [queues]
    exact sound.queued other moved
  · intro other moved
    rw [workers]
    exact sound.running other moved
  · intro other
    rw [workers]
    exact sound.runningNodup other
  · exact sound.taken
  · exact sound.once
  · have order := sound.order
    simp only [State.queue, current, State.queueAt, part_of_found found] at order
    simp only [State.queue, current, State.queueAt, part_set found, if_pos, order]

theorem clear (sound : Sound capacity state) (current : state.current = some id)
    (drained : state.executors[id]? = some ⟨false, [], []⟩) :
    Sound capacity { state with current := none } := by
  refine ⟨nofun, ?_, sound.workers, sound.queued, sound.running, sound.runningNodup, sound.taken,
    sound.once, ?_⟩
  · intro other executor found _
    by_cases here : other = id
    · rw [here, drained] at found
      cases found
      rfl
    · exact sound.idle other executor found (by simpa [current] using Ne.symm here)
  · have order := sound.order
    simp only [State.queue, current, State.queueAt, part_of_found drained] at order
    exact order

theorem step (sound : Sound capacity state) {label : Label}
    (stepped : (system capacity).step state label = some next) : Sound capacity next := by
  cases steps_of_step stepped with
  | getCurrent current found accepting =>
      exact sound.get _ sound.known sound.idle (fun _ => rfl) (fun _ => rfl) sound.order
  | getNew absent => exact sound.getNew absent
  | submit fetched found accepting => exact sound.submit fetched found accepting
  | refuse fetched found refusing => exact sound.refuse fetched
  | begin found room => exact sound.begin found room
  | finish running found => exact sound.finish running found
  | close current found accepting => exact sound.close current found
  | clear current drained => exact sound.clear current drained

end Sound

theorem sound_of_reached {capacity : Nat} {allowed : State → Label → Prop} {state : State}
    (reached : (system capacity).Reached allowed state) : Sound capacity state := by
  apply reached.invariant (Sound capacity)
  · constructor <;> simp [system, State.runningAt, State.queueAt, State.queue]
  · intro state label next sound _ stepped
    exact sound.step stepped

/-! ## What the pool guarantees -/

namespace Sound

variable {capacity : Nat} {state next : State} {id task : Nat} {executor : Executor}

/-- Tasks are begun in the order in which they were taken. -/
theorem begun_prefix (sound : Sound capacity state) : state.begun <+: state.submitted :=
  ⟨state.queue, sound.order.symm⟩

/-- No task is left behind in an executor that was forgotten. -/
theorem finished_of_absent (sound : Sound capacity state) (absent : state.current = none) :
    ∀ task ∈ state.submitted, state.tasks[task]? = some .finished := by
  intro task member
  have empty : ∀ id, state.queueAt id = [] ∧ state.runningAt id = [] := by
    intro id
    cases found : state.executors[id]? with
    | none => simp [State.queueAt, State.runningAt, found]
    | some executor =>
        have idle := sound.idle id executor found (by simp [absent])
        simp [State.queueAt, State.runningAt, found, idle]
  obtain ⟨stage, known, handed⟩ := sound.taken task member
  cases stage with
  | finished => exact known
  | queued id => simp [sound.queued, empty] at known
  | running id => simp [sound.running, empty] at known
  | fetched | refused => cases handed

/-- At most `capacity` tasks run, on old and new executors together. -/
theorem running_le (sound : Sound capacity state) :
    (state.executors.map (·.running.length)).sum ≤ capacity := by
  have idle : ∀ executors : List Executor,
      (∀ executor ∈ executors, executor.running = []) →
        (executors.map (·.running.length)).sum = 0 := by
    intro executors empty
    induction executors with
    | nil => rfl
    | cons executor executors ih =>
        rw [List.map_cons, List.sum_cons, empty executor List.mem_cons_self,
          ih fun other later => empty other (List.mem_cons_of_mem _ later), List.length_nil]
  cases busy : state.current.bind (state.executors[·]?) with
  | none =>
      rw [idle]
      · exact Nat.zero_le _
      · intro executor member
        obtain ⟨id, found⟩ := List.mem_iff_getElem?.mp member
        rw [sound.idle id executor found]
        intro current
        simp [current, found] at busy
  | some executor =>
      obtain ⟨id, current, found⟩ := Option.bind_eq_some_iff.mp busy
      have workers := sound.workers id
      rw [State.runningAt, part_of_found found] at workers
      have total := sum_map_set (·.running.length) found ⟨false, [], []⟩
      rw [idle] at total
      · simp only [List.length_nil] at total
        omega
      · intro other member
        obtain ⟨place, there⟩ := List.mem_iff_getElem?.mp member
        rcases of_getElem?_set there with ⟨-, rfl⟩ | ⟨apart, old⟩
        · rfl
        · rw [sound.idle place other old]
          intro same
          rw [current] at same
          cases same
          exact apart rfl

end Sound

end LazyPool
