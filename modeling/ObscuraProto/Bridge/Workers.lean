import ObscuraProto.Bridge.FetchPool

/-!
# Four workers, first come first served

What the queue of the request executor promises to the requests of a process: at most
four `_fetch` calls hold a worker, none is lost or handed out twice, and none begins
before one that was submitted earlier.
-/

namespace ObscuraProto

open Transition Processes

/-- A hand-over to the executor is final. -/
theorem SettlementState.pool_of_step {state next : SettlementState} {label : SettlementLabel}
    {id : CallId} (taken : settlement.step state label = some next)
    (pooled : state.submissions[id]? = some .pool) : next.submissions[id]? = some .pool := by
  cases label with
  | submit other raises =>
      obtain ⟨pending, rfl⟩ := step_submit taken
      have apart : id ≠ other := by
        rintro rfl
        rw [pending] at pooled
        cases pooled
      rw [getElem?_set_of_found pending, if_neg apart, pooled]
  | await label =>
      obtain ⟨after, steps, rfl⟩ := step_await taken
      cases label with
      | start =>
          simp only [record, submissionsAfter]
          rw [List.getElem?_append_left (List.getElem?_eq_some_iff.mp pooled).1, pooled]
      | act | publish | arrive | tick => exact pooled

namespace ProcessState

variable {state next : ProcessState} {fetch : FetchId}

/-- What a step does to the queue of the executor. -/
theorem queue_of_step {label : ProcessLabel}
    (stepped : requestProcess.step state label = some next) :
    next.queue = state.queue ∨
      (∃ added, next.queue = state.queue ++ [added] ∧ state.pooled added = false) ∨
        ∃ taken, state.queue = taken :: next.queue := by
  cases processSteps_of_step stepped with
  | create | collect | call | arrive | publish | tick => exact .inl rfl
  | @submit fetch object requests raises found taken =>
      cases raises with
      | true => exact .inl rfl
      | false =>
          refine .inr (.inl ⟨fetch, rfl, ?_⟩)
          obtain ⟨pending, -⟩ := SettlementState.step_submit taken
          simp [pooled, found, pending]
  | act found taken permitted =>
      rcases schedule_cases permitted with ⟨-, -, rest, head, -, rfl⟩ | ⟨-, -, rfl⟩ | ⟨-, rfl⟩ |
        ⟨-, -, rfl⟩
      · exact .inr (.inr ⟨_, head⟩)
      · exact .inl rfl
      · exact .inl rfl
      · exact .inl rfl

/-- A `_fetch` handed to the executor stays handed to it. -/
theorem pooled_of_step {label : ProcessLabel} (coherent : state.Coherent)
    (stepped : requestProcess.step state label = some next) (pooled : state.pooled fetch = true) :
    next.pooled fetch = true := by
  simp only [ProcessState.pooled, Option.any_eq_true, beq_iff_eq] at pooled ⊢
  obtain ⟨object, found, submitted⟩ := pooled
  obtain ⟨later, known, same | ⟨label, -, taken⟩⟩ := requests_of_step coherent stepped found
  · exact ⟨later, known, same ▸ submitted⟩
  · exact ⟨later, known, SettlementState.pool_of_step taken submitted⟩

/-- The queue between two states: it was served from the head, and what came in since
had not been handed over before. -/
structure Served (origin state : ProcessState) : Prop where
  queue : ∃ taken added, state.queue = origin.queue.drop taken ++ added ∧
    ∀ fetch ∈ added, origin.pooled fetch = false
  pooled : ∀ fetch, origin.pooled fetch = true → state.pooled fetch = true

theorem Served.step {origin : ProcessState} {label : ProcessLabel} (served : Served origin state)
    (coherent : state.Coherent) (stepped : requestProcess.step state label = some next) :
    Served origin next := by
  refine ⟨?_, fun fetch pooled => pooled_of_step coherent stepped (served.pooled fetch pooled)⟩
  obtain ⟨taken, added, queue, fresh⟩ := served.queue
  rcases queue_of_step stepped with same | ⟨new, extended, unpooled⟩ | ⟨first, shorter⟩
  · exact ⟨taken, added, same.trans queue, fresh⟩
  · refine ⟨taken, added ++ [new], by rw [extended, queue, List.append_assoc], ?_⟩
    intro fetch member
    rcases List.mem_append.mp member with earlier | last
    · exact fresh fetch earlier
    · rw [List.mem_singleton.mp last]
      by_contra pooled
      rw [served.pooled new (by simpa using pooled)] at unpooled
      cases unpooled
  · rw [shorter] at queue
    cases remaining : origin.queue.drop taken with
    | nil =>
        rw [remaining, List.nil_append] at queue
        refine ⟨taken, next.queue, by rw [remaining, List.nil_append], ?_⟩
        exact fun fetch member => fresh fetch (queue ▸ List.mem_cons_of_mem _ member)
    | cons head rest =>
        rw [remaining, List.cons_append, List.cons.injEq] at queue
        refine ⟨taken + 1, added, ?_, fresh⟩
        rw [← List.tail_drop, remaining]
        exact queue.2

theorem served_of_along {origin : ProcessState}
    (reached : requestProcess.Reached System.Free origin)
    (along : requestProcess.Along System.Free origin state) : Served origin state := by
  have both : Served origin state ∧ requestProcess.Reached System.Free state := by
    apply along.invariant fun state =>
      Served origin state ∧ requestProcess.Reached System.Free state
    · exact ⟨⟨⟨0, [], by simp, by simp⟩, fun _ => (·)⟩, reached⟩
    · intro state label next known _ stepped
      exact ⟨known.1.step (coherent_of_reached known.2) stepped,
        known.2.take label trivial stepped⟩
  exact both.1

theorem pooled_of_queued (queued : state.phase fetch = some .queued) :
    state.pooled fetch = true := by
  obtain ⟨object, found, phased⟩ := Option.bind_eq_some_iff.mp queued
  rw [SettlementState.phase] at phased
  split at phased
  · next submitted => exact (pooled_iff found).mpr submitted
  · cases phased

/-- What was in the queue and is no longer waiting was served, and everything ahead of
it before it. -/
theorem Served.ahead {origin : ProcessState} (served : Served origin state)
    (before : origin.Scheduled) (scheduled : state.Scheduled) {ahead behind : List FetchId}
    (queued : origin.queue = ahead ++ fetch :: behind)
    (begun : state.phase fetch ≠ some .queued) :
    ∀ earlier ∈ ahead, state.phase earlier ≠ some .queued := by
  obtain ⟨taken, added, queue, fresh⟩ := served.queue
  have known : ∀ other ∈ origin.queue, other ∉ added := by
    intro other member new
    have pooled := pooled_of_queued ((before.queued other).mp member)
    rw [fresh other new] at pooled
    cases pooled
  have passed : ahead.length < taken := by
    by_contra short
    apply begun
    rw [← scheduled.queued, queue, queued, List.drop_append_of_le_length (Nat.le_of_not_lt short)]
    simp
  intro earlier member waiting
  rw [← scheduled.queued, queue, List.mem_append] at waiting
  have nodup := before.queueNodup
  rw [queued, List.nodup_append] at nodup
  rcases waiting with left | new
  · have later : earlier ∈ fetch :: behind := by
      rw [queued, List.drop_append, List.drop_eq_nil_of_le passed.le, List.nil_append] at left
      exact List.mem_of_mem_drop left
    exact nodup.2.2 earlier member earlier later rfl
  · exact known earlier (queued ▸ List.mem_append_left _ member) new

end ProcessState

/-- In every run a `_fetch` begins only after all that were submitted before it. -/
theorem requestProcess_firstComeFirstServed {state later : ProcessState} {fetch : FetchId}
    {ahead behind : List FetchId} (reached : requestProcess.Reached System.Free state)
    (queued : state.queue = ahead ++ fetch :: behind)
    (along : requestProcess.Along System.Free state later)
    (begun : later.phase fetch ≠ some .queued) :
    ∀ earlier ∈ ahead, later.phase earlier ≠ some .queued :=
  (ProcessState.served_of_along reached along).ahead (ProcessState.scheduled_of_reached reached)
    (ProcessState.scheduled_of_reached (reached.trans along)) queued begun

/-- Requests on futures of their own, each handed to the executor. -/
def submitted (requests : List FutureId) : List ProcessLabel :=
  requests.flatMap fun future =>
    [.create (future + 7), .call future "async_request" none, .submit (future, 0) false]

/-- The second of two waiting `_fetch` calls has a worker, and so has the first. -/
theorem requestProcess_firstComeFirstServed_two :
    ∃ state later : ProcessState, state.queue = [(0, 0), (1, 0)] ∧
      requestProcess.Along System.Free state later ∧ later.phase (1, 0) = some .running ∧
        ∀ earlier ∈ [((0, 0) : FetchId)], later.phase earlier ≠ some .queued := by
  have ran : ((requestProcess.run System.Free requestProcess.initial (submitted [0, 1])).bind
      fun state => (requestProcess.run System.Free state
        [.act (0, 0) .begin, .act (1, 0) .begin]).map
          fun later => (state.queue, later.phase (1, 0))) =
      some ([(0, 0), (1, 0)], some .running) := by decide +kernel
  obtain ⟨state, taken, rest⟩ := Option.bind_eq_some_iff.mp ran
  obtain ⟨later, begun, observed⟩ := Option.map_eq_some_iff.mp rest
  obtain ⟨queued, working⟩ := Prod.mk.inj observed
  have split : state.queue = [(0, 0)] ++ (1, 0) :: [] := queued
  have along := System.along_of_run begun
  exact ⟨state, later, queued, along, working,
    requestProcess_firstComeFirstServed (System.along_of_run taken) split along
      (by simp [working])⟩

/-- At most four `_fetch` calls hold a worker, and every one handed over and not over is
in the queue once or has one worker. -/
theorem requestProcess_workers {state : ProcessState}
    (reached : requestProcess.Reached System.Free state) :
    (∀ fetches : List FetchId, fetches.Nodup →
      (∀ fetch ∈ fetches, state.phase fetch = some .running) →
        fetches.length ≤ requestExecutorMaxWorkers) ∧
      (∀ fetch, state.queue.count fetch = if state.phase fetch = some .queued then 1 else 0) ∧
      ∀ fetch, state.running.count fetch =
        if state.phase fetch = some .running then 1 else 0 := by
  have scheduled := ProcessState.scheduled_of_reached reached
  refine ⟨?_, ?_, ?_⟩
  · intro fetches nodup running
    have within : fetches ⊆ state.running :=
      fun fetch member => (scheduled.running fetch).mpr (running fetch member)
    exact (nodup.subperm within).length_le.trans scheduled.capacity
  · intro fetch
    rw [scheduled.queueNodup.count]
    simp only [scheduled.queued]
  · intro fetch
    rw [scheduled.runningNodup.count]
    simp only [scheduled.running]

/-- Four requests hold the workers and a fifth waits. -/
theorem requestProcess_workers_full :
    ∃ state : ProcessState, state.running.length = 4 ∧ state.queue = [(4, 0)] ∧
      (∀ fetches : List FetchId, fetches.Nodup →
        (∀ fetch ∈ fetches, state.phase fetch = some .running) →
          fetches.length ≤ requestExecutorMaxWorkers) ∧
        (∀ fetch, state.queue.count fetch = if state.phase fetch = some .queued then 1 else 0) ∧
        ∀ fetch, state.running.count fetch =
          if state.phase fetch = some .running then 1 else 0 := by
  have ran : ((requestProcess.run System.Free requestProcess.initial
      (submitted [0, 1, 2, 3, 4] ++ [.act (0, 0) .begin, .act (1, 0) .begin, .act (2, 0) .begin,
        .act (3, 0) .begin])).map fun state => (state.running.length, state.queue)) =
      some (4, [(4, 0)]) := by decide +kernel
  obtain ⟨state, taken, observed⟩ := Option.map_eq_some_iff.mp ran
  obtain ⟨running, queue⟩ := Prod.mk.inj observed
  exact ⟨state, running, queue, requestProcess_workers (System.along_of_run taken)⟩

end ObscuraProto
