import ObscuraProto.Bridge.Registry

/-!
# The request executor and the event loop

The `_fetch` calls of all futures wait in one queue for four workers, and their
`_publish` calls in the queue of one loop.  A `_fetch` handed over is in the queue, with
a worker or over; it is taken in the order of submission, and the loop has one entry for
every outcome posted to it.
-/

namespace ObscuraProto

open Transition Processes

/-- Where a `_fetch` is that was handed to the request executor and is not over. -/
inductive FetchPhase where
  | queued | running
  deriving DecidableEq

def Worker.phase : Worker → Option FetchPhase
  | .queued => some .queued
  | .finished => none
  | _ => some .running

namespace SettlementState

/-- Where the `_fetch` of a call is in the request executor. -/
def phase (state : SettlementState) (id : CallId) : Option FetchPhase :=
  if state.submissions[id]? = some .pool then state.await.calls[id]?.bind (·.worker.phase)
  else none

/-- A call that was not handed over has not begun to fetch. -/
structure Handed (state : SettlementState) : Prop where
  length : state.submissions.length = state.await.calls.length
  waiting : ∀ (id : CallId) (call : Call), state.submissions[id]? = some .pending →
    state.await.calls[id]? = some call → call.worker = .queued

end SettlementState

/-- Where a `_fetch` of the process is in the request executor. -/
def ProcessState.phase (state : ProcessState) (fetch : FetchId) : Option FetchPhase :=
  state.objects[fetch.1]?.bind (·.requests.phase fetch.2)

/-! ## One future -/

/-- What a step of a call does to its worker. -/
theorem Acts.phase_cases {state next : AwaitState} {id : CallId} {call after : Call}
    {action : Action} (acts : Acts state id call action next after) :
    action = .begin ∧ call.worker.phase = some .queued ∧ after.worker.phase = some .running ∧
        next.callbacks = state.callbacks ∨
      action = .post ∧ call.worker.phase = some .running ∧ after.worker.phase = none ∧
        next.callbacks.length = state.callbacks.length + 1 ∨
      action ≠ .begin ∧ action ≠ .post ∧ after.worker.phase = call.worker.phase ∧
        next.callbacks = state.callbacks := by
  cases acts with
  | begin queued => exact .inl ⟨rfl, by rw [queued]; rfl, rfl, rfl⟩
  | post publishing => exact .inr (.inl ⟨rfl, by rw [publishing]; rfl, rfl, by simp⟩)
  | pollReady working | pollPending working | pollFails working | sleep working
  | giveUp working | claim working | refuse working | get working | getInvalid working =>
      exact .inr (.inr ⟨by simp, by simp, by rw [working]; rfl, rfl⟩)
  | resume | expire | cancel => exact .inr (.inr ⟨by simp, by simp, rfl, rfl⟩)

namespace SettlementState

variable {state next : SettlementState} {id : CallId}

theorem step_act {action : Action}
    (taken : settlement.step state (.await (.act id action)) = some next) :
    ∃ call between after, state.await.calls[id]? = some call ∧
      Acts state.await id call action between after ∧ state.submissions[id]? ≠ some .pending ∧
        next = state.record (.act id action)
          { between with calls := state.await.calls.set id after } := by
  simp only [settlement, SettlementState.step] at taken
  split at taken
  · next submitted =>
      obtain ⟨later, stepped, rfl⟩ := Option.map_eq_some_iff.mp taken
      have steps : Steps state.await (.act id action) later := steps_of_step stepped
      cases steps with
      | @act _ _ call after between found acts =>
          refine ⟨call, between, after, found, acts, ?_, rfl⟩
          intro pending
          simp [SettlementState.submitted, pending] at submitted
  · cases taken

theorem Handed.step {label : SettlementLabel} (handed : state.Handed)
    (taken : settlement.step state label = some next) : next.Handed := by
  cases label with
  | submit id raises =>
      obtain ⟨pending, rfl⟩ := step_submit taken
      constructor
      · simpa using handed.length
      · intro other call unsubmitted found
        rcases of_getElem?_set unsubmitted with ⟨-, isPending⟩ | ⟨-, before⟩
        · cases raises <;> cases isPending
        · exact handed.waiting other call before found
  | await label =>
      cases label with
      | act id action =>
          obtain ⟨call, between, after, found, acts, submitted, rfl⟩ := step_act taken
          constructor
          · simpa [record, submissionsAfter] using handed.length
          · intro other current unsubmitted known
            rcases of_getElem?_set known with ⟨rfl, -⟩ | ⟨-, before⟩
            · exact absurd unsubmitted submitted
            · exact handed.waiting other current unsubmitted before
      | start what timeout =>
          obtain ⟨after, steps, rfl⟩ := step_await taken
          cases steps
          constructor
          · simpa [record, submissionsAfter] using handed.length
          · intro other current unsubmitted known
            rcases of_getElem?_append known with before | ⟨-, rfl⟩
            · rcases of_getElem?_append unsubmitted with earlier | ⟨rfl, -⟩
              · exact handed.waiting other current earlier before
              · have bound := (List.getElem?_eq_some_iff.mp before).1
                exact absurd (handed.length ▸ bound) (lt_irrefl _)
            · rfl
      | publish =>
          obtain ⟨after, steps, rfl⟩ := step_await taken
          cases steps
          constructor
          · simpa [record, submissionsAfter] using handed.length
          · intro other current unsubmitted known
            obtain ⟨before, found, rfl | ⟨-, -, rfl⟩⟩ := AwaitState.of_getElem?_publish known
            · exact handed.waiting other current unsubmitted found
            · exact handed.waiting other before unsubmitted found
      | arrive reply =>
          obtain ⟨after, steps, rfl⟩ := step_await taken
          cases steps
          exact ⟨handed.length, handed.waiting⟩
      | tick elapsed =>
          obtain ⟨after, steps, rfl⟩ := step_await taken
          cases steps
          exact ⟨handed.length, handed.waiting⟩

theorem handed_of_reached (reached : settlement.Reached System.Free state) : state.Handed :=
  reached.invariant Handed ⟨rfl, fun id call unsubmitted => by cases unsubmitted⟩
    fun _ _ _ handed _ taken => handed.step taken

/-- Submitting a `_fetch` puts it on the queue of the executor, unless `submit()` raises. -/
theorem phase_submit {raises : Bool} (handed : state.Handed)
    (taken : settlement.step state (.submit id raises) = some next) :
    state.phase id = none ∧
      ∀ other, next.phase other =
        if other = id ∧ raises = false then some .queued else state.phase other := by
  obtain ⟨pending, rfl⟩ := step_submit taken
  have bound := (List.getElem?_eq_some_iff.mp pending).1
  rw [handed.length] at bound
  have found := List.getElem?_eq_getElem bound
  have queued := handed.waiting id _ pending found
  refine ⟨by simp [phase, pending], fun other => ?_⟩
  simp only [phase, getElem?_set_of_found pending]
  by_cases same : other = id
  · subst same
    cases raises
    · simp [found, queued, Worker.phase]
    · simp [pending]
  · simp [same]

/-- Nothing but its own steps moves a `_fetch`. -/
theorem phase_of_not_act {label : AwaitLabel} (handed : state.Handed)
    (taken : settlement.step state (.await label) = some next)
    (apart : ∀ id action, label ≠ .act id action) (id : CallId) :
    next.phase id = state.phase id := by
  obtain ⟨after, steps, rfl⟩ := step_await taken
  cases steps with
  | act => exact absurd rfl (apart _ _)
  | arrive | tick => rfl
  | start what timeout =>
      simp only [phase, record, submissionsAfter, getElem?_append_fresh, handed.length]
      by_cases last : id = state.await.calls.length
      · simp [last, ← handed.length]
      · simp [last]
  | publish queued =>
      simp only [phase, record, submissionsAfter, List.getElem?_modify]
      split
      · cases found : state.await.calls[id]? with
        | none => rfl
        | some call =>
            simp only [Option.map_eq_map, Option.map_some, Option.bind_some]
            split <;> simp
      · rfl

theorem phase_of_pool {call : Call} (pooled : state.submissions[id]? = some .pool)
    (found : state.await.calls[id]? = some call) : state.phase id = call.worker.phase := by
  simp [phase, pooled, found]

/-- A step of a call moves its own `_fetch` only. -/
theorem phase_record {action : Action} {call after : Call} {between : AwaitState}
    (found : state.await.calls[id]? = some call) (other : CallId) :
    (state.record (.act id action)
      { between with calls := state.await.calls.set id after }).phase other =
      if other = id ∧ state.submissions[id]? = some .pool then after.worker.phase
      else state.phase other := by
  simp only [phase, record, submissionsAfter, getElem?_set_of_found found]
  by_cases same : other = id
  · subst same
    simp only [if_true, true_and, Option.bind_some]
    split <;> rfl
  · simp [same]

end SettlementState

/-! ## The executor -/

namespace ProcessState

variable {state next : ProcessState} {future : FutureId} {object : FutureObject}
  {requests : SettlementState} {fetch : FetchId}

/-- The queues and the workers agree with what the calls are doing. -/
structure Scheduled (state : ProcessState) : Prop where
  queueNodup : state.queue.Nodup
  runningNodup : state.running.Nodup
  queued : ∀ fetch, fetch ∈ state.queue ↔ state.phase fetch = some .queued
  running : ∀ fetch, fetch ∈ state.running ↔ state.phase fetch = some .running
  capacity : state.running.length ≤ requestExecutorMaxWorkers
  known : ∀ future ∈ state.ready, future < state.objects.length
  ready : ∀ (future : FutureId) (object : FutureObject), state.objects[future]? = some object →
    state.ready.count future = object.requests.await.callbacks.length

theorem phase_of_found (found : state.objects[fetch.1]? = some object) :
    state.phase fetch = object.requests.phase fetch.2 := by
  rw [phase, found]
  rfl

theorem phase_set (found : state.objects[future]? = some object)
    (objects : next.objects = state.objects.set future { object with requests })
    (fetch : FetchId) :
    next.phase fetch =
      if fetch.1 = future then requests.phase fetch.2 else state.phase fetch := by
  rw [phase, objects, getElem?_set_of_found found]
  split <;> rfl

/-- The loop's queue after a step of one future, which has `posted` outcomes more. -/
theorem Scheduled.ready_set (scheduled : state.Scheduled)
    (found : state.objects[future]? = some object)
    (objects : next.objects = state.objects.set future { object with requests })
    (others : ∀ other, other ≠ future → next.ready.count other = state.ready.count other)
    (own : next.ready.count future = requests.await.callbacks.length) :
    ∀ (other : FutureId) (current : FutureObject), next.objects[other]? = some current →
      next.ready.count other = current.requests.await.callbacks.length := by
  intro other current known
  rcases of_getElem?_set (objects ▸ known) with ⟨rfl, rfl⟩ | ⟨apart, before⟩
  · exact own
  · rw [others other apart]
    exact scheduled.ready other current before

/-- A step that moves no `_fetch` and posts nothing. -/
theorem Scheduled.of_same (scheduled : state.Scheduled) (queue : next.queue = state.queue)
    (running : next.running = state.running) (phase : ∀ fetch, next.phase fetch = state.phase fetch)
    (known : ∀ future ∈ next.ready, future < next.objects.length)
    (ready : ∀ (future : FutureId) (object : FutureObject), next.objects[future]? = some object →
      next.ready.count future = object.requests.await.callbacks.length) : next.Scheduled where
  queueNodup := queue ▸ scheduled.queueNodup
  runningNodup := running ▸ scheduled.runningNodup
  queued fetch := by rw [queue, phase]; exact scheduled.queued fetch
  running fetch := by rw [running, phase]; exact scheduled.running fetch
  capacity := running ▸ scheduled.capacity
  known := known
  ready := ready

/-- A step of the calls on one future that is no step of a `_fetch`. -/
theorem Scheduled.aside (scheduled : state.Scheduled) {label : AwaitLabel}
    (handed : object.requests.Handed) (found : state.objects[future]? = some object)
    (objects : next.objects = state.objects.set future { object with requests })
    (taken : settlement.step object.requests (.await label) = some requests)
    (apart : ∀ id action, label ≠ .act id action) (queue : next.queue = state.queue)
    (running : next.running = state.running)
    (subset : ∀ other ∈ next.ready, other ∈ state.ready)
    (others : ∀ other, other ≠ future → next.ready.count other = state.ready.count other)
    (own : next.ready.count future = requests.await.callbacks.length) : next.Scheduled := by
  refine scheduled.of_same queue running ?_ ?_ (scheduled.ready_set found objects others own)
  · intro fetch
    rw [phase_set found objects]
    split
    · next same =>
        subst same
        rw [SettlementState.phase_of_not_act handed taken apart, phase_of_found found]
    · rfl
  · intro other member
    rw [objects, List.length_set]
    exact scheduled.known other (subset other member)

theorem Scheduled.create (scheduled : state.Scheduled) (address : Address) :
    Scheduled { state with objects :=
      state.objects ++ [{ address, requests := { await := { now := state.now } } }] } := by
  refine scheduled.of_same rfl rfl ?_ ?_ ?_
  · intro fetch
    simp only [phase, getElem?_append_fresh]
    split
    · next last => simp [last, SettlementState.phase]
    · rfl
  · intro other member
    rw [List.length_append]
    exact Nat.lt_add_right _ (scheduled.known other member)
  · intro other current known
    rcases of_getElem?_append known with before | ⟨rfl, rfl⟩
    · exact scheduled.ready other current before
    · exact List.count_eq_zero.mpr fun member => absurd (scheduled.known _ member) (lt_irrefl _)

/-- What changes no call changes no `_fetch`. -/
theorem Scheduled.retain (scheduled : state.Scheduled) (queue : next.queue = state.queue)
    (running : next.running = state.running) (ready : next.ready = state.ready)
    (length : next.objects.length = state.objects.length)
    (origin : ∀ (other : FutureId) (current : FutureObject), next.objects[other]? = some current →
      ∃ before, state.objects[other]? = some before ∧
        (∀ id, current.requests.phase id = before.requests.phase id) ∧
          current.requests.await.callbacks = before.requests.await.callbacks) :
    next.Scheduled := by
  refine scheduled.of_same queue running ?_ ?_ ?_
  · intro fetch
    cases known : next.objects[fetch.1]? with
    | none =>
        have missing : state.objects[fetch.1]? = none := by
          rw [List.getElem?_eq_none_iff] at known ⊢
          exact length ▸ known
        simp [phase, known, missing]
    | some current =>
        obtain ⟨before, found, same, -⟩ := origin _ _ known
        rw [phase_of_found known, phase_of_found found, same]
  · intro other member
    exact length ▸ scheduled.known other (ready ▸ member)
  · intro other current known
    obtain ⟨before, found, -, same⟩ := origin _ _ known
    rw [ready, same]
    exact scheduled.ready other before found

section Move

variable (scheduled : state.Scheduled)
  (known : ∀ future ∈ next.ready, future < next.objects.length)
  (ready : ∀ (future : FutureId) (object : FutureObject), next.objects[future]? = some object →
    next.ready.count future = object.requests.await.callbacks.length)
include scheduled known ready

theorem Scheduled.enqueue (absent : state.phase fetch = none)
    (phases : ∀ other, next.phase other =
      if other = fetch then some .queued else state.phase other)
    (queue : next.queue = state.queue ++ [fetch]) (running : next.running = state.running) :
    next.Scheduled where
  queueNodup := by
    rw [queue]
    refine scheduled.queueNodup.append (List.nodup_singleton _) ?_
    intro other member last
    rw [List.mem_singleton.mp last, scheduled.queued, absent] at member
    cases member
  runningNodup := running ▸ scheduled.runningNodup
  queued other := by
    rw [queue, phases, List.mem_append, List.mem_singleton, scheduled.queued]
    split
    · next same => simp [same]
    · next apart => simp [apart]
  running other := by
    rw [running, phases, scheduled.running]
    split
    · next same => simp [same, absent]
    · rfl
  capacity := running ▸ scheduled.capacity
  known := known
  ready := ready

/-- A worker takes the `_fetch` at the head of the queue. -/
theorem Scheduled.takeUp {rest : List FetchId} (head : state.queue = fetch :: rest)
    (room : state.running.length < requestExecutorMaxWorkers)
    (phases : ∀ other, next.phase other =
      if other = fetch then some .running else state.phase other)
    (queue : next.queue = rest) (running : next.running = state.running ++ [fetch]) :
    next.Scheduled := by
  have nodup := scheduled.queueNodup
  rw [head, List.nodup_cons] at nodup
  have waiting : state.phase fetch = some .queued := by
    rw [← scheduled.queued, head]
    exact List.mem_cons_self
  constructor
  · exact queue ▸ nodup.2
  · rw [running]
    refine scheduled.runningNodup.append (List.nodup_singleton _) ?_
    intro other member last
    rw [List.mem_singleton.mp last, scheduled.running, waiting] at member
    cases member
  · intro other
    have before := scheduled.queued other
    rw [head, List.mem_cons] at before
    rw [queue, phases]
    split
    · next same => subst same; simp [nodup.1]
    · next apart => rw [← before, or_iff_right apart]
  · intro other
    rw [running, phases, List.mem_append, List.mem_singleton, scheduled.running]
    split
    · next same => simp [same]
    · next apart => simp [apart]
  · rw [running, List.length_append]
    exact room
  · exact known
  · exact ready

/-- A worker is done with a `_fetch`. -/
theorem Scheduled.release (working : state.phase fetch = some .running)
    (phases : ∀ other, next.phase other = if other = fetch then none else state.phase other)
    (queue : next.queue = state.queue) (running : next.running = state.running.erase fetch) :
    next.Scheduled where
  queueNodup := queue ▸ scheduled.queueNodup
  runningNodup := running ▸ scheduled.runningNodup.erase fetch
  queued other := by
    rw [queue, phases, scheduled.queued]
    split
    · next same => simp [same, working]
    · rfl
  running other := by
    rw [running, phases, scheduled.runningNodup.mem_erase_iff, scheduled.running]
    split
    · next same => simp [same]
    · next apart => simp [apart]
  capacity := (running ▸ List.length_erase_le).trans scheduled.capacity
  known := known
  ready := ready

end Move

theorem Scheduled.submit (scheduled : state.Scheduled) {raises : Bool}
    (handed : object.requests.Handed) (found : state.objects[fetch.1]? = some object)
    (taken : settlement.step object.requests (.submit fetch.2 raises) = some requests)
    (objects : next.objects = state.objects.set fetch.1 { object with requests })
    (queue : next.queue = if raises then state.queue else state.queue ++ [fetch])
    (running : next.running = state.running) (ready : next.ready = state.ready) :
    next.Scheduled := by
  obtain ⟨absent, moved⟩ := SettlementState.phase_submit handed taken
  have phases : ∀ other, next.phase other =
      if other = fetch ∧ raises = false then some .queued else state.phase other := by
    intro other
    rw [phase_set found objects]
    by_cases same : other.1 = fetch.1
    · have here : state.phase other = object.requests.phase other.2 := by
        rw [phase, same, found]
        rfl
      simp only [moved, here, Prod.ext_iff, same, true_and, if_true]
    · rw [if_neg same, if_neg fun both => same (congrArg Prod.fst both.1)]
  have known : ∀ future ∈ next.ready, future < next.objects.length := by
    rw [ready, objects, List.length_set]
    exact scheduled.known
  have counted := scheduled.ready_set found objects (fun _ _ => by rw [ready]) (by
    obtain ⟨-, rfl⟩ := SettlementState.step_submit taken
    rw [ready]
    exact scheduled.ready _ _ found)
  cases raises with
  | false =>
      refine scheduled.enqueue known counted ((phase_of_found found).trans absent) ?_ queue running
      intro other
      rw [phases]
      simp
  | true =>
      refine scheduled.of_same queue running ?_ known counted
      intro other
      rw [phases]
      simp

/-- What becomes of a `_fetch` in a step of its own. -/
theorem phase_act {action : Action} {id : CallId} {call after : Call} {between : AwaitState}
    (found : state.objects[future]? = some object)
    (called : object.requests.await.calls[id]? = some call)
    (recorded : requests = object.requests.record (.act id action)
      { between with calls := object.requests.await.calls.set id after })
    (objects : next.objects = state.objects.set future { object with requests })
    (other : FetchId) :
    next.phase other =
      if other = (future, id) ∧ object.requests.submissions[id]? = some .pool then
        after.worker.phase
      else state.phase other := by
  subst recorded
  rw [phase_set found objects]
  by_cases same : other.1 = future
  · have here : state.phase other = object.requests.phase other.2 := by
      rw [phase, same, found]
      rfl
    simp only [SettlementState.phase_record called, here, Prod.ext_iff, same, true_and, if_true]
  · rw [if_neg same, if_neg fun both => same (congrArg Prod.fst both.1)]

theorem pooled_iff (found : state.objects[fetch.1]? = some object) :
    state.pooled fetch = true ↔ object.requests.submissions[fetch.2]? = some .pool := by
  simp [pooled, found]

/-- What a step of a `_fetch` does to the executor and the loop. -/
theorem schedule_cases {action : Action} (scheduled : state.schedule fetch action = some next) :
    action = .begin ∧ state.pooled fetch = true ∧
        (∃ rest, state.queue = fetch :: rest ∧ state.running.length < requestExecutorMaxWorkers ∧
          next = { state with queue := rest, running := state.running ++ [fetch] }) ∨
      action = .begin ∧ state.pooled fetch = false ∧ next = state ∨
      action = .post ∧
        next = { state with
          running := state.running.erase fetch
          ready := state.ready ++ [fetch.1] } ∨
      action ≠ .begin ∧ action ≠ .post ∧ next = state := by
  cases action with
  | begin =>
      simp only [schedule, takeUp] at scheduled
      split at scheduled
      · next pooled =>
          split at scheduled
          · next head rest queue =>
              split at scheduled
              · next permitted =>
                  cases scheduled
                  exact .inl ⟨rfl, pooled, rest, permitted.1 ▸ queue, permitted.2, rfl⟩
              · cases scheduled
          · cases scheduled
      · next free =>
          cases scheduled
          exact .inr (.inl ⟨rfl, by simpa using free, rfl⟩)
  | post => cases scheduled; exact .inr (.inr (.inl ⟨rfl, rfl⟩))
  | poll | check | claim | get | resume | expire | cancel =>
      cases scheduled
      exact .inr (.inr (.inr ⟨by simp, by simp, rfl⟩))

theorem Scheduled.act (scheduled : state.Scheduled) {action : Action} {call after : Call}
    {between : AwaitState} {granted : ProcessState}
    (found : state.objects[fetch.1]? = some object)
    (called : object.requests.await.calls[fetch.2]? = some call)
    (acts : Acts object.requests.await fetch.2 call action between after)
    (recorded : requests = object.requests.record (.act fetch.2 action)
      { between with calls := object.requests.await.calls.set fetch.2 after })
    (objects : next.objects = state.objects.set fetch.1 { object with requests })
    (permitted : state.schedule fetch action = some granted) (queue : next.queue = granted.queue)
    (running : next.running = granted.running) (ready : next.ready = granted.ready) :
    next.Scheduled := by
  have phases := phase_act found called recorded objects
  have own : requests.await.callbacks = between.callbacks := by rw [recorded]; rfl
  have kept : ∀ future ∈ state.ready, future < next.objects.length := by
    rw [objects, List.length_set]
    exact scheduled.known
  have before := scheduled.ready fetch.1 object found
  have quiet : next.ready = state.ready → between.callbacks = object.requests.await.callbacks →
      ∀ (other : FutureId) (current : FutureObject), next.objects[other]? = some current →
        next.ready.count other = current.requests.await.callbacks.length := by
    intro sameReady same
    refine scheduled.ready_set found objects (fun _ _ => by rw [sameReady]) ?_
    rw [sameReady, own, same]
    exact before
  rcases schedule_cases permitted with ⟨rfl, pooled, rest, head, room, rfl⟩ | ⟨rfl, pooled, rfl⟩ |
    ⟨rfl, rfl⟩ | ⟨begins, posts, rfl⟩
  · -- A worker of the executor begins.
    obtain ⟨-, -, begun, same⟩ | ⟨impossible, -⟩ | ⟨impossible, -⟩ := acts.phase_cases
    · refine scheduled.takeUp (ready ▸ kept) (quiet ready same) head room ?_ queue running
      intro other
      rw [phases, (pooled_iff found).mp pooled, begun]
      simp
    · cases impossible
    · exact absurd rfl impossible
  · -- A thread of its own begins.
    obtain ⟨-, -, -, same⟩ | ⟨impossible, -⟩ | ⟨impossible, -⟩ := acts.phase_cases
    · refine scheduled.of_same queue running ?_ (ready ▸ kept) (quiet ready same)
      intro other
      rw [phases, if_neg fun both => ?_]
      rw [(pooled_iff found).mpr both.2] at pooled
      cases pooled
    · cases impossible
    · exact absurd rfl impossible
  · obtain ⟨impossible, -⟩ | ⟨-, working, ended, posted⟩ | ⟨-, impossible, -⟩ := acts.phase_cases
    · cases impossible
    · have known : ∀ future ∈ next.ready, future < next.objects.length := by
        intro future member
        rw [ready, List.mem_append, List.mem_singleton] at member
        rcases member with earlier | rfl
        · exact kept future earlier
        · rw [objects, List.length_set]
          exact (List.getElem?_eq_some_iff.mp found).1
      have counted := scheduled.ready_set found objects
        (fun other apart => by simp [ready, Ne.symm apart])
        (by rw [ready, own, posted, List.count_append, before]; simp)
      by_cases pooled : object.requests.submissions[fetch.2]? = some .pool
      · refine scheduled.release known counted ?_ ?_ queue running
        · rw [phase_of_found found, SettlementState.phase_of_pool pooled called, working]
        · intro other
          rw [phases, ended, pooled]
          simp
      · -- It was no task of the executor.
        refine scheduled.of_same queue ?_ ?_ known counted
        · rw [running]
          apply List.erase_of_not_mem
          rw [scheduled.running, phase_of_found found, SettlementState.phase, if_neg pooled]
          simp
        · intro other
          rw [phases, if_neg fun both => pooled both.2]
    · exact absurd rfl impossible
  · obtain ⟨rfl, -⟩ | ⟨rfl, -⟩ | ⟨-, -, still, same⟩ := acts.phase_cases
    · exact absurd rfl begins
    · exact absurd rfl posts
    · refine scheduled.of_same queue running ?_ (ready ▸ kept) (quiet ready same)
      intro other
      rw [phases]
      split
      · next its =>
          rw [its.1, phase_of_found found, SettlementState.phase_of_pool its.2 called, still]
      · rfl

theorem Scheduled.step {label : ProcessLabel} (scheduled : state.Scheduled)
    (coherent : state.Coherent) (stepped : requestProcess.step state label = some next) :
    next.Scheduled := by
  have handed : ∀ (future : FutureId) (object : FutureObject),
      state.objects[future]? = some object → object.requests.Handed :=
    fun future object found => SettlementState.handed_of_reached (coherent.reached _ _ found)
  cases processSteps_of_step stepped with
  | create free => exact scheduled.create _
  | collect found live unreferenced =>
      refine scheduled.retain rfl rfl rfl List.length_set fun other current known => ?_
      rcases of_getElem?_set known with ⟨rfl, rfl⟩ | ⟨-, before⟩
      · exact ⟨_, found, fun _ => rfl, rfl⟩
      · exact ⟨current, before, fun _ => rfl, rfl⟩
  | tick positive =>
      refine scheduled.retain rfl rfl rfl (List.length_map _) fun other current known => ?_
      rw [List.getElem?_map] at known
      obtain ⟨before, found, rfl⟩ := Option.map_eq_some_iff.mp known
      exact ⟨before, found, fun _ => rfl, rfl⟩
  | @call future object _ _ _ found live taken =>
      have posted := scheduled.ready future object found
      refine scheduled.aside (handed _ _ found) found rfl taken (by simp) rfl rfl (fun _ => (·))
        (fun _ _ => rfl) ?_
      obtain ⟨after, steps, rfl⟩ := SettlementState.step_await taken
      cases steps
      exact posted
  | submit found taken => exact scheduled.submit (handed _ _ found) found taken rfl rfl rfl rfl
  | @arrive future _ object _ found taken =>
      have posted := scheduled.ready future object found
      refine scheduled.aside (handed _ _ found) found rfl taken (by simp) rfl rfl (fun _ => (·))
        (fun _ _ => rfl) ?_
      obtain ⟨after, steps, rfl⟩ := SettlementState.step_await taken
      cases steps
      exact posted
  | @publish future ready object _ queued found taken =>
      have posted := scheduled.ready future object found
      rw [queued, List.count_cons_self] at posted
      refine scheduled.aside (handed _ _ found) found rfl taken (by simp) rfl rfl
        (fun other member => queued ▸ List.mem_cons_of_mem _ member)
        (fun other apart => by rw [queued, List.count_cons_of_ne (Ne.symm apart)]) ?_
      obtain ⟨after, steps, rfl⟩ := SettlementState.step_await taken
      cases steps with
      | publish callbacks =>
          rw [callbacks, List.length_cons] at posted
          exact Nat.succ.inj posted
  | @act fetch action object requests granted found taken permitted =>
      obtain ⟨-, taken⟩ := coherent.taken found taken
      obtain ⟨call, between, after, called, acts, -, recorded⟩ := SettlementState.step_act taken
      exact scheduled.act found called acts recorded rfl permitted rfl rfl rfl

theorem scheduled_of_reached (reached : requestProcess.Reached System.Free state) :
    state.Scheduled := by
  apply reached.invariant_of Scheduled fun _ => coherent_of_reached
  · constructor
    · exact List.nodup_nil
    · exact List.nodup_nil
    · exact fun fetch => by simp [requestProcess, phase]
    · exact fun fetch => by simp [requestProcess, phase]
    · exact Nat.zero_le _
    · exact fun future member => by cases member
    · exact fun future object found => by cases found
  · intro state label next coherent scheduled _ stepped
    exact scheduled.step coherent stepped

end ProcessState

end ObscuraProto
