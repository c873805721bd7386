import ObscuraProto.Endpoint.LoopProgress

/-!
# While the loop stands still

A native call on the loop's thread stops every coroutine of the loop.  The I/O threads go
on: a wait whose future was done gets its result, and every other one runs out.  So the
call comes to its end, and the requests in progress do not.
-/

namespace ObscuraProto

open Transition Processes

/-- The wait an I/O thread is in. -/
def IoPhase.wait : IoPhase → Option Wait
  | polling wait | checking wait | sleeping wait _ => some wait
  | idle | exited => none

namespace LoopState

variable {Name Code : Type} {program : LoopProgram Name Code} {state next : LoopState Name Code}
  {endpoint : EndpointId} {thread after : IoThread Name} {action : IoAction}
  {label : LoopLabel Name} {id : TaskId} {task : LoopTask Code}

/-- The I/O thread of an endpoint is in a wait. -/
def Waits (state : LoopState Name Code) (endpoint : EndpointId) (wait : Wait) : Prop :=
  ∃ thread, state.threads[endpoint]? = some thread ∧ thread.phase.wait = some wait

/-- No two I/O threads wait for one task. -/
structure Distinct (state : LoopState Name Code) : Prop where
  bound : ∀ endpoint wait, state.Waits endpoint wait → wait.task < state.tasks.length
  apart : ∀ endpoint other wait within, state.Waits endpoint wait → state.Waits other within →
    wait.task = within.task → endpoint = other

/-! ## The tasks under a step of an I/O thread -/

theorem tasks_deliver (message : Message Name) :
    ∃ fresh, (state.deliver program endpoint thread message).tasks = state.tasks ++ fresh ∧
      ∀ task ∈ fresh, ∃ code, task = ⟨.ready code, {}⟩ := by
  cases message with
  | answer key content => exact ⟨[], by simp [deliver], by simp⟩
  | invoke name =>
      rw [deliver]
      split
      · exact ⟨[], by simp, by simp⟩
      · exact ⟨[_], rfl, by simp⟩

/-- No step of an I/O thread moves a coroutine. -/
theorem activity_of_ioSteps (steps : IoSteps program state endpoint thread action next)
    (known : state.tasks[id]? = some task) :
    ∃ future, next.tasks[id]? = some ⟨task.activity, future⟩ := by
  cases steps with
  | deliver =>
      obtain ⟨fresh, same, -⟩ := tasks_deliver _
      rw [same, List.getElem?_append_left (List.getElem?_eq_some_iff.mp known).1]
      exact ⟨task.future, known⟩
  | @expire reading wait =>
      simp only [tasks_setThread, abandon, List.getElem?_modify, known]
      split
      · exact ⟨task.future.abandon, rfl⟩
      · exact ⟨task.future, rfl⟩
  | collect | pending | sleep | wake | exit => exact ⟨task.future, known⟩

/-- A task after a step of an I/O thread was there before, or is ready to begin. -/
theorem activity_before_ioSteps (steps : IoSteps program state endpoint thread action next)
    (known : next.tasks[id]? = some task) :
    (∃ before, state.tasks[id]? = some before ∧ before.activity = task.activity) ∨
      ∃ code, task.activity = .ready code := by
  rcases Nat.lt_or_ge id state.tasks.length with old | beyond
  · have there := List.getElem?_eq_getElem old
    obtain ⟨future, after⟩ := activity_of_ioSteps steps there
    rw [known] at after
    cases after
    exact .inl ⟨_, there, rfl⟩
  · have absent := List.getElem?_eq_none beyond
    cases steps with
    | deliver =>
        obtain ⟨fresh, same, ready⟩ := tasks_deliver _
        rw [same, List.getElem?_append_right beyond] at known
        obtain ⟨code, rfl⟩ := ready task (List.mem_of_getElem? known)
        exact .inr ⟨code, rfl⟩
    | expire =>
        have bound := (List.getElem?_eq_some_iff.mp known).1
        simp only [tasks_setThread, abandon, List.length_modify] at bound
        exact absurd bound (Nat.not_lt_of_ge beyond)
    | collect | pending | sleep | wake | exit => exact absurd (absent.symm.trans known) (by simp)

theorem length_le_of_ioSteps (steps : IoSteps program state endpoint thread action next) :
    state.tasks.length ≤ next.tasks.length := by
  cases steps with
  | deliver =>
      obtain ⟨fresh, same, -⟩ := tasks_deliver _
      rw [same, List.length_append]
      exact Nat.le_add_right _ _
  | expire => simp [abandon]
  | collect | pending | sleep | wake | exit => exact le_rfl

/-- A step of an I/O thread keeps its wait, ends it or begins one for a new task. -/
theorem wait_of_ioSteps (steps : IoSteps program state endpoint thread action next) :
    ∃ after, next.threads = state.threads.set endpoint after ∧
      ∀ wait, after.phase.wait = some wait → thread.phase.wait = some wait ∨
        wait.task = state.tasks.length ∧ state.tasks.length < next.tasks.length := by
  cases steps with
  | deliver idle =>
      obtain ⟨after, threads, -, -, phase⟩ := threads_deliver _
      refine ⟨after, threads, ?_⟩
      intro wait within
      rcases phase with same | same | ⟨same, grown⟩
      · rw [same, idle] at within
        cases within
      · rw [same] at within
        cases within
      · rw [same] at within
        cases within
        exact .inr ⟨rfl, grown⟩
  | collect | expire | exit => exact ⟨_, rfl, by simp [IoPhase.wait]⟩
  | pending polling => exact ⟨_, rfl, by simp [IoPhase.wait, polling]⟩
  | sleep checking => exact ⟨_, rfl, by simp [IoPhase.wait, checking]⟩
  | wake sleeping => exact ⟨_, rfl, by simp [IoPhase.wait, sleeping]⟩

/-- The waits after a step of an I/O thread. -/
theorem waits_of_ioSteps {other : EndpointId} {wait : Wait}
    (steps : IoSteps program state endpoint thread action next)
    (found : state.threads[endpoint]? = some thread) (waits : next.Waits other wait) :
    state.Waits other wait ∨
      other = endpoint ∧ wait.task = state.tasks.length ∧
        state.tasks.length < next.tasks.length := by
  obtain ⟨after, threads, kept⟩ := wait_of_ioSteps steps
  obtain ⟨current, there, within⟩ := waits
  rw [threads] at there
  rcases of_getElem?_set there with ⟨rfl, rfl⟩ | ⟨-, known⟩
  · rcases kept wait within with before | ⟨fresh, grown⟩
    · exact .inl ⟨thread, found, before⟩
    · exact .inr ⟨rfl, fresh, grown⟩
  · exact .inl ⟨current, known, within⟩

theorem Distinct.io (distinct : state.Distinct)
    (steps : IoSteps program state endpoint thread action next)
    (found : state.threads[endpoint]? = some thread) : next.Distinct where
  bound other wait waits := by
    rcases waits_of_ioSteps steps found waits with before | ⟨-, fresh, grown⟩
    · exact (distinct.bound other wait before).trans_le (length_le_of_ioSteps steps)
    · exact fresh ▸ grown
  apart one other wait within waits others same := by
    rcases waits_of_ioSteps steps found waits with before | ⟨rfl, fresh, -⟩
    · rcases waits_of_ioSteps steps found others with earlier | ⟨-, fresh, -⟩
      · exact distinct.apart one other wait within before earlier same
      · exact absurd (same.trans fresh) (Nat.ne_of_lt (distinct.bound one wait before))
    · rcases waits_of_ioSteps steps found others with earlier | ⟨rfl, -, -⟩
      · exact absurd (same.symm.trans fresh) (Nat.ne_of_lt (distinct.bound other within earlier))
      · rfl

/-- Steps that begin no wait keep the waits apart. -/
theorem Distinct.of_waits (distinct : state.Distinct)
    (grown : state.tasks.length ≤ next.tasks.length)
    (kept : ∀ endpoint wait, next.Waits endpoint wait → state.Waits endpoint wait) :
    next.Distinct where
  bound endpoint wait waits := (distinct.bound endpoint wait (kept _ _ waits)).trans_le grown
  apart one other wait within waits others :=
    distinct.apart one other wait within (kept _ _ waits) (kept _ _ others)

/-- A thread replaced by one in the same phase. -/
theorem waits_of_set {other : EndpointId} {wait : Wait}
    (found : state.threads[endpoint]? = some thread)
    (threads : next.threads = state.threads.set endpoint after)
    (phase : after.phase = thread.phase) (waits : next.Waits other wait) :
    state.Waits other wait := by
  obtain ⟨current, there, within⟩ := waits
  rw [threads] at there
  rcases of_getElem?_set there with ⟨rfl, rfl⟩ | ⟨-, known⟩
  · exact ⟨thread, found, phase ▸ within⟩
  · exact ⟨current, known, within⟩

theorem waits_of_loopKeeps {other : EndpointId} {wait : Wait} (keeps : LoopKeeps state next)
    (waits : next.Waits other wait) : state.Waits other wait := by
  rcases keeps.threads with same | ⟨stopped, thread, there, same⟩
  · obtain ⟨current, known, within⟩ := waits
    exact ⟨current, same ▸ known, within⟩
  · exact waits_of_set there same rfl waits

theorem Distinct.step (distinct : state.Distinct)
    (taken : (loopThread program).step state label = some next) : next.Distinct := by
  simp only [loopThread, LoopState.step] at taken
  split at taken
  · obtain ⟨receiver, there, rfl⟩ := Option.map_eq_some_iff.mp taken
    exact distinct.of_waits le_rfl fun _ _ => waits_of_set there rfl rfl
  · obtain ⟨actor, there, acted⟩ := Option.bind_eq_some_iff.mp taken
    exact distinct.io (ioSteps_of_act acted) there
  · obtain ⟨stopped, there, rfl⟩ := Option.map_eq_some_iff.mp taken
    exact distinct.of_waits le_rfl fun _ _ => waits_of_set there rfl rfl
  · have kept : ∀ {after : LoopState Name Code}, LoopKeeps state after → after.Distinct :=
      fun keeps => distinct.of_waits keeps.length.ge fun _ _ => waits_of_loopKeeps keeps
    split at taken
    · exact kept (loopKeeps_of_loopStep taken)
    · exact kept (loopKeeps_of_returnStep taken).1

theorem distinct_of_reached (reached : (loopThread program).Reached System.Free state) :
    state.Distinct := by
  apply reached.invariant Distinct
  · have none : ∀ endpoint wait, ¬ (loopThread program).initial.Waits endpoint wait := by
      rintro endpoint wait ⟨thread, there, within⟩
      have fresh : thread = {} := by
        have member := List.mem_of_getElem? there
        exact List.eq_of_mem_replicate member
      rw [fresh] at within
      cases within
    exact ⟨fun endpoint wait waits => absurd waits (none endpoint wait),
      fun endpoint _ wait _ waits => absurd waits (none endpoint wait)⟩
  · exact fun _ _ _ distinct _ taken => distinct.step taken

/-! ## What happens while the loop is blocked -/

theorem results_deliver {message : Message Name} :
    (state.deliver program endpoint thread message).results = state.results := by
  cases message with
  | answer key content => rfl
  | invoke name =>
      rw [deliver]
      split <;> rfl

theorem blocked_of_ioSteps (steps : IoSteps program state endpoint thread action next) :
    next.blocked = state.blocked := by
  cases steps with
  | @deliver reading message =>
      cases message with
      | answer key content => rfl
      | invoke name =>
          rw [deliver]
          split <;> rfl
  | collect | pending | expire | sleep | wake | exit => rfl


/-- What a step is while the loop's thread is in a native call. -/
theorem step_of_blocked (blocked : state.blocked = some id)
    (within : label.isReturn = false)
    (taken : (loopThread program).step state label = some next) :
    (∃ endpoint thread after, state.threads[endpoint]? = some thread ∧
        next = state.setThread endpoint after ∧ after.phase = thread.phase) ∨
      ∃ endpoint thread action, label = .io endpoint action ∧
        state.threads[endpoint]? = some thread ∧
          IoSteps program state endpoint thread action next := by
  simp only [loopThread, LoopState.step] at taken
  split at taken
  · obtain ⟨receiver, there, rfl⟩ := Option.map_eq_some_iff.mp taken
    exact .inl ⟨_, receiver, _, there, rfl, rfl⟩
  · obtain ⟨actor, there, acted⟩ := Option.bind_eq_some_iff.mp taken
    exact .inr ⟨_, actor, _, rfl, there, ioSteps_of_act acted⟩
  · obtain ⟨stopped, there, rfl⟩ := Option.map_eq_some_iff.mp taken
    exact .inl ⟨_, stopped, _, there, rfl, rfl⟩
  · rw [blocked] at taken
    cases label with
    | joined | answered => cases within
    | receive | io | halt | turn | resume | settle | cancel => cases taken

theorem resultOf_of_length_le (beyond : state.tasks.length ≤ id) : state.resultOf id = none := by
  rw [resultOf, List.getElem?_eq_none beyond]
  rfl

/-- New tasks have pending futures and leave the others as they are. -/
theorem resultOf_append {fresh : List (LoopTask Code)}
    (tasks : next.tasks = state.tasks ++ fresh)
    (pending : ∀ task ∈ fresh, ∃ code, task = ⟨.ready code, {}⟩) :
    next.resultOf id = state.resultOf id := by
  rcases Nat.lt_or_ge id state.tasks.length with old | beyond
  · rw [resultOf, resultOf, tasks, List.getElem?_append_left old]
  · rw [resultOf_of_length_le beyond, resultOf, tasks, List.getElem?_append_right beyond]
    cases found : fresh[id - state.tasks.length]? with
    | none => rfl
    | some task =>
        obtain ⟨code, rfl⟩ := pending task (List.mem_of_getElem? found)
        rfl

theorem resultOf_modify {other : TaskId} {change : LoopTask Code → LoopTask Code}
    (tasks : next.tasks = state.tasks.modify other change) (apart : id ≠ other) :
    next.resultOf id = state.resultOf id := by
  have same : (state.tasks.modify other change)[id]? = state.tasks[id]? := by
    simp [Ne.symm apart]
  rw [resultOf, resultOf, tasks, same]

/-- No step of an I/O thread changes the future of a task that one waits for then. -/
theorem Distinct.resultOf_eq {other : EndpointId} {wait : Wait} (distinct : state.Distinct)
    (steps : IoSteps program state endpoint thread action next)
    (found : state.threads[endpoint]? = some thread) (waits : next.Waits other wait) :
    next.resultOf wait.task = state.resultOf wait.task := by
  cases steps with
  | @deliver reading =>
      obtain ⟨fresh, tasks, pending⟩ := tasks_deliver _
      exact resultOf_append tasks pending
  | @expire reading within checking forward late =>
      obtain ⟨current, there, isWait⟩ := waits
      rcases of_getElem?_set there with ⟨rfl, rfl⟩ | ⟨apart, known⟩
      · cases isWait
      · apply resultOf_modify rfl
        intro same
        exact apart (distinct.apart other endpoint wait within ⟨current, known, isWait⟩
          ⟨thread, found, by rw [checking, IoPhase.wait]⟩ same)
  | collect | pending | sleep | wake | exit => rfl

/-- A thread has polled and not yet read the clock. -/
def Checks (state : LoopState Name Code) (id : TaskId) : Prop :=
  ∃ (endpoint : EndpointId) (thread : IoThread Name) (wait : Wait),
    state.threads[endpoint]? = some thread ∧ thread.phase = .checking wait ∧ wait.task = id

/-- A thread that has polled did so before, or finds a pending future. -/
theorem checks_of_ioSteps (steps : IoSteps program state endpoint thread action next)
    (found : state.threads[endpoint]? = some thread) (checks : next.Checks id) :
    state.Checks id ∨ ∃ wait, state.Waits endpoint wait ∧ wait.task = id ∧
      state.resultOf id = none := by
  obtain ⟨other, current, wait, there, checking, rfl⟩ := checks
  have others : ∀ after, next.threads = state.threads.set endpoint after →
      after.phase ≠ .checking wait → state.Checks wait.task := by
    intro after threads apart
    rw [threads] at there
    rcases of_getElem?_set there with ⟨-, rfl⟩ | ⟨-, known⟩
    · exact absurd checking apart
    · exact ⟨other, current, wait, known, checking, rfl⟩
  cases steps with
  | deliver idle =>
      obtain ⟨after, threads, -, -, phase⟩ := threads_deliver _
      refine .inl (others after threads ?_)
      rcases phase with same | same | ⟨same, -⟩
      · simp [same, idle]
      · simp [same]
      · simp [same]
  | @pending within polling undone =>
      rcases of_getElem?_set there with ⟨-, rfl⟩ | ⟨-, known⟩
      · cases checking
        exact .inr ⟨wait, ⟨thread, found, by rw [polling, IoPhase.wait]⟩, rfl, undone⟩
      · exact .inl ⟨other, current, wait, known, checking, rfl⟩
  | collect | expire | sleep | wake | exit => exact .inl (others _ rfl (by simp))

/-- What a wait for a task may end in when the loop stands still from `origin` on. -/
def Grants (program : LoopProgram Name Code) (origin : LoopState Name Code) (id : TaskId)
    (outcome : Except PyExc PyValue) : Prop :=
  origin.resultOf id = some outcome ∨
    outcome = .error (callbackTimeout program.resultTimeout) ∧
      (origin.resultOf id = none ∨ origin.Checks id)

/-- What has happened since `origin` while the loop stood still. -/
structure Since (program : LoopProgram Name Code) (origin state : LoopState Name Code) :
    Prop where
  grown : origin.tasks.length ≤ state.tasks.length
  activity : ∀ (id : TaskId) (task : LoopTask Code), origin.tasks[id]? = some task →
    ∃ future, state.tasks[id]? = some ⟨task.activity, future⟩
  waits : ∀ endpoint wait, state.Waits endpoint wait →
    state.resultOf wait.task = origin.resultOf wait.task
  checks : ∀ id, state.Checks id → origin.resultOf id = none ∨ origin.Checks id
  results : ∃ ended, state.results = origin.results ++ ended ∧
    ∀ entry ∈ ended, origin.Grants program entry.1 entry.2

variable {origin : LoopState Name Code}

theorem Since.refl : Since program state state where
  grown := le_rfl
  activity _ task known := ⟨task.future, known⟩
  waits _ _ _ := rfl
  checks _ checks := .inr checks
  results := ⟨[], by simp, by simp⟩

theorem Since.io (since : Since program origin state) (distinct : state.Distinct)
    (steps : IoSteps program state endpoint thread action next)
    (found : state.threads[endpoint]? = some thread) : Since program origin next where
  grown := since.grown.trans (length_le_of_ioSteps steps)
  activity id task known := by
    obtain ⟨future, before⟩ := since.activity id task known
    obtain ⟨later, after⟩ := activity_of_ioSteps steps before
    exact ⟨later, after⟩
  waits other wait waits := by
    rw [distinct.resultOf_eq steps found waits]
    rcases waits_of_ioSteps steps found waits with before | ⟨-, fresh, -⟩
    · exact since.waits other wait before
    · rw [fresh, resultOf_of_length_le le_rfl, resultOf_of_length_le since.grown]
  checks id checks := by
    rcases checks_of_ioSteps steps found checks with before | ⟨wait, waits, rfl, undone⟩
    · exact since.checks id before
    · exact .inl ((since.waits endpoint wait waits).symm.trans undone)
  results := by
    obtain ⟨ended, same, granted⟩ := since.results
    have extended : ∀ {id : TaskId} {outcome : Except PyExc PyValue},
        origin.Grants program id outcome →
          ∃ ended, state.results ++ [(id, outcome)] = origin.results ++ ended ∧
            ∀ entry ∈ ended, origin.Grants program entry.1 entry.2 := by
      intro id outcome grants
      refine ⟨ended ++ [(id, outcome)], by rw [same, List.append_assoc], ?_⟩
      intro entry member
      rcases List.mem_append.mp member with before | last
      · exact granted entry before
      · rw [List.mem_singleton.mp last]
        exact grants
    cases steps with
    | deliver => exact ⟨ended, results_deliver.trans same, granted⟩
    | @collect wait outcome polling done =>
        have waits : state.Waits endpoint wait := ⟨thread, found, by rw [polling, IoPhase.wait]⟩
        exact extended (.inl ((since.waits endpoint wait waits).symm.trans done))
    | @expire reading wait checking =>
        exact extended (.inr ⟨rfl, since.checks wait.task ⟨endpoint, thread, wait, found,
          checking, rfl⟩⟩)
    | pending | sleep | wake | exit => exact ⟨ended, same, granted⟩

/-- The step of a run in which the loop stands still. -/
theorem Since.step (since : Since program origin state) (distinct : state.Distinct)
    (blocked : state.blocked = some id) (within : label.isReturn = false)
    (taken : (loopThread program).step state label = some next) :
    Since program origin next ∧ next.blocked = some id := by
  rcases step_of_blocked blocked within taken with
    ⟨endpoint, thread, after, found, rfl, phase⟩ | ⟨endpoint, thread, action, -, found, steps⟩
  · refine ⟨⟨since.grown, since.activity, ?_, ?_, since.results⟩, blocked⟩
    · exact fun other wait waits => since.waits other wait (waits_of_set found rfl phase waits)
    · rintro id ⟨other, current, wait, there, checking, rfl⟩
      apply since.checks
      rcases of_getElem?_set there with ⟨rfl, rfl⟩ | ⟨-, known⟩
      · exact ⟨other, thread, wait, found, phase ▸ checking, rfl⟩
      · exact ⟨other, current, wait, known, checking, rfl⟩
  · exact ⟨since.io distinct steps found, (blocked_of_ioSteps steps).trans blocked⟩

/-- The native call the loop's thread is in has not returned. -/
def StandsStill (_ : LoopState Name Code) (label : LoopLabel Name) : Prop :=
  label.isReturn = false

instance (state : LoopState Name Code) (label : LoopLabel Name) :
    Decidable (state.StandsStill label) :=
  inferInstanceAs (Decidable (_ = _))

theorem since_of_run {labels : List (LoopLabel Name)}
    (reached : (loopThread program).Reached System.Free state) (blocked : state.blocked = some id)
    (ran : (loopThread program).run StandsStill state labels = some next) :
    Since program state next ∧ next.blocked = some id := by
  have both := (System.along_of_run ran).invariant
    (fun later => (Since program state later ∧ later.blocked = some id) ∧ later.Distinct)
    ⟨⟨.refl, blocked⟩, distinct_of_reached reached⟩
    fun _ _ _ known within taken =>
      ⟨known.1.1.step known.2 known.1.2 within taken, known.2.step taken⟩
  exact both.1

end LoopState

open LoopState in
/-- While the loop's thread is in a native call no coroutine moves, and a wait ends in a
result only if the future was done before. -/
theorem blockedLoop_results {Name Code : Type} {program : LoopProgram Name Code}
    {state later : LoopState Name Code} {labels : List (LoopLabel Name)} {id : TaskId}
    (reached : (loopThread program).Reached System.Free state) (blocked : state.blocked = some id)
    (ran : (loopThread program).run StandsStill state labels = some later) :
    (∀ (other : TaskId) (task : LoopTask Code), state.tasks[other]? = some task →
        ∃ future, later.tasks[other]? = some ⟨task.activity, future⟩) ∧
      ∃ ended, later.results = state.results ++ ended ∧
        ∀ entry ∈ ended, state.Grants program entry.1 entry.2 := by
  have since := (since_of_run reached blocked ran).1
  exact ⟨since.activity, since.results⟩

open LoopState in
/-- A request whose handler has not begun when the program leaves its `async with`. -/
theorem blockedLoop_results_leaving :
    ∃ later labels, (loopThread leavingProgram).run StandsStill leavingState labels = some later ∧
      later.results = [(2, .error (callbackTimeout ⟨5, "5.0"⟩))] ∧
      (∀ (other : TaskId) (task : LoopTask Nat), leavingState.tasks[other]? = some task →
          ∃ future, later.tasks[other]? = some ⟨task.activity, future⟩) ∧
        ∃ ended, later.results = leavingState.results ++ ended ∧
          ∀ entry ∈ ended, leavingState.Grants leavingProgram entry.1 entry.2 := by
  let labels : List (LoopLabel Unit) := [.io 0 .poll, .io 0 (.check 5)]
  have ran : ((loopThread leavingProgram).run StandsStill leavingState labels).map
      (·.results) = some [(2, .error (callbackTimeout ⟨5, "5.0"⟩))] := by decide +kernel
  obtain ⟨later, after, results⟩ := Option.map_eq_some_iff.mp ran
  exact ⟨later, labels, after, results, blockedLoop_results reached_leavingState rfl after⟩

end ObscuraProto
