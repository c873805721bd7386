import ObscuraProto.Bridge.Drain
import ObscuraProto.Bridge.Responses
import ObscuraProto.Bridge.Workers

/-!
# What an unlimited wait costs

A `_fetch` without a deadline keeps its worker until its future is resolved.  Four of
them on futures that never are keep every other `_fetch` waiting.
-/

namespace ObscuraProto

open Transition Processes

namespace Worker

/-- In front of `ready()` or, after it was false, of the deadline check. -/
def Waits : Worker → Prop
  | queued | polling _ | checking => True
  | consuming | claimed | publishing _ | finished => False

end Worker

namespace AwaitState

variable {state next : AwaitState} {id : CallId} {call after : Call} {action : Action}

/-- What an unresolved future lets its calls do: only a deadline ends a wait. -/
def Unresolved (state : AwaitState) : Prop :=
  state.reply = none → state.valid = true ∧
    ∀ (id : CallId) (call : Call), state.calls[id]? = some call →
      call.worker.Waits ∨ call.deadline ≠ none ∧ call.worker ≠ .consuming ∧ call.worker ≠ .claimed

/-- While nothing has arrived a waiting call goes on waiting or gives up at its deadline. -/
theorem waits_of_acts (acts : Acts state id call action next after)
    (unanswered : state.reply = none) (shared : state.valid = true)
    (before : call.worker.Waits ∨
      call.deadline ≠ none ∧ call.worker ≠ .consuming ∧ call.worker ≠ .claimed) :
    next.valid = true ∧ (after.worker.Waits ∨
      after.deadline ≠ none ∧ after.worker ≠ .consuming ∧ after.worker ≠ .claimed) := by
  cases acts with
  | begin | pollPending | sleep => exact ⟨shared, .inl trivial⟩
  | pollReady polling answer => simp [ready, shared, unanswered] at answer
  | pollFails polling answer => simp [ready, shared] at answer
  | giveUp checking limited => exact ⟨shared, .inr (by simp [limited])⟩
  | claim working | refuse working | get working | getInvalid working =>
      simp [working, Worker.Waits] at before
  | post working =>
      rw [working] at before
      exact ⟨shared, .inr ⟨(before.resolve_left fun waits => waits).1, by simp, by simp⟩⟩
  | resume | expire | cancel => exact ⟨shared, before⟩

theorem Unresolved.step {label : AwaitLabel} (unresolved : state.Unresolved)
    (stepped : awaitFuture.step state label = some next) : next.Unresolved := by
  intro unanswered
  have before : state.reply = none := by
    by_contra answered
    obtain ⟨reply, replied⟩ := Option.ne_none_iff_exists'.mp answered
    rw [(kept_of_step stepped).2 reply replied] at unanswered
    cases unanswered
  obtain ⟨shared, waits⟩ := unresolved before
  cases steps_of_step stepped with
  | arrive => cases unanswered
  | tick => exact ⟨shared, waits⟩
  | start what timeout =>
      refine ⟨shared, fun id call found => ?_⟩
      rcases of_getElem?_append found with known | ⟨-, rfl⟩
      · exact waits id call known
      · exact .inl trivial
  | publish queued =>
      refine ⟨shared, fun id call found => ?_⟩
      obtain ⟨earlier, known, rfl | ⟨-, -, rfl⟩⟩ := of_getElem?_publish found
      · exact waits id call known
      · exact waits id earlier known
  | act known acts =>
      have moved := waits_of_acts acts before shared (waits _ _ known)
      refine ⟨moved.1, fun other current found => ?_⟩
      rcases of_getElem?_set found with ⟨-, rfl⟩ | ⟨-, unchanged⟩
      · exact moved.2
      · exact waits other current unchanged

theorem unresolved_of_reached {allowed : AwaitState → AwaitLabel → Prop}
    (reached : awaitFuture.Reached allowed state) : state.Unresolved :=
  reached.invariant Unresolved
    (fun _ => ⟨rfl, fun id call found => by cases found⟩)
    fun _ _ _ unresolved _ stepped => unresolved.step stepped

end AwaitState

/-- The `_fetch` of the call has a worker, no deadline and nothing to fetch. -/
def SettlementState.Holds (state : SettlementState) (id : CallId) : Prop :=
  state.submissions[id]? = some .pool ∧ state.await.reply = none ∧
    ∃ call, state.await.calls[id]? = some call ∧ call.worker.phase = some .running ∧
      call.deadline = none

instance (state : SettlementState) (id : CallId) : Decidable (state.Holds id) :=
  inferInstanceAs (Decidable (_ ∧ _ ∧ ∃ call ∈ state.await.calls[id]?, _))

namespace SettlementState.Holds

variable {state next : SettlementState} {id : CallId}

theorem act (holds : state.Holds id) (unresolved : state.await.Unresolved) {acting : CallId}
    {action : Action} (taken : settlement.step state (.await (.act acting action)) = some next) :
    next.Holds id := by
  obtain ⟨pooled, unanswered, call, found, working, unlimited⟩ := holds
  obtain ⟨shared, waits⟩ := unresolved unanswered
  obtain ⟨acted, between, after, called, acts, -, rfl⟩ := step_act taken
  have silent : between.reply = none := (acts.shared_kept
    (AwaitState.waits_of_acts acts unanswered shared (waits _ _ called)).1).2.trans unanswered
  refine ⟨pooled, silent, ?_⟩
  simp only [record, getElem?_set_of_found called]
  by_cases same : id = acting
  · subst same
    rw [found] at called
    cases called
    refine ⟨after, if_pos rfl, ?_, acts.call_kept.2.trans unlimited⟩
    rcases acts.phase_cases with ⟨-, queued, -⟩ | ⟨rfl, -⟩ | ⟨-, -, kept, -⟩
    · rw [working] at queued
      cases queued
    · cases acts with
      | post publishing =>
          have before := waits _ _ found
          simp [publishing, Worker.Waits, unlimited] at before
    · exact kept.trans working
  · exact ⟨call, by rw [if_neg same, found], working, unlimited⟩

theorem step (holds : state.Holds id) (unresolved : state.await.Unresolved)
    {label : SettlementLabel} (taken : settlement.step state label = some next)
    (unanswered : ∀ reply, label ≠ .await (.arrive reply)) : next.Holds id := by
  by_cases acting : ∃ other action, label = .await (.act other action)
  · obtain ⟨other, action, rfl⟩ := acting
    exact holds.act unresolved taken
  · obtain ⟨pooled, silent, call, found, working, unlimited⟩ := holds
    obtain ⟨later, known, worker, deadline⟩ := kept_of_step taken
      (fun other action same => acting ⟨other, action, same⟩) found
    refine ⟨pool_of_step taken pooled, ?_, later, known, worker ▸ working,
      deadline.trans unlimited⟩
    cases label with
    | submit other raises =>
        obtain ⟨-, rfl⟩ := step_submit taken
        exact silent
    | await label =>
        obtain ⟨after, steps, rfl⟩ := step_await taken
        cases steps with
        | act => exact absurd ⟨_, _, rfl⟩ acting
        | arrive => exact absurd rfl (unanswered _)
        | start | publish | tick => exact silent

end SettlementState.Holds

namespace ProcessState

variable {state next : ProcessState} {fetch : FetchId}

/-- The `_fetch` keeps a worker busy with a future that is not resolved. -/
def Holds (state : ProcessState) (fetch : FetchId) : Prop :=
  ∃ object, state.objects[fetch.1]? = some object ∧ object.requests.Holds fetch.2

instance (state : ProcessState) (fetch : FetchId) : Decidable (state.Holds fetch) :=
  inferInstanceAs (Decidable (∃ object ∈ state.objects[fetch.1]?, _))

/-- Nothing arrives for the given calls. -/
def NoAnswer (holders : List FetchId) (_ : ProcessState) : ProcessLabel → Prop
  | .arrive future _ => ∀ fetch ∈ holders, fetch.1 ≠ future
  | _ => True

instance (holders : List FetchId) (state : ProcessState) : DecidablePred (NoAnswer holders state)
  | .arrive .. => inferInstanceAs (Decidable (∀ fetch ∈ holders, _))
  | .create _ | .collect _ | .call .. | .submit .. | .act .. | .publish | .tick _ => isTrue trivial

theorem Holds.step {label : ProcessLabel} (holds : state.Holds fetch) (coherent : state.Coherent)
    (unanswered : ∀ reply, label ≠ .arrive fetch.1 reply)
    (stepped : requestProcess.step state label = some next) : next.Holds fetch := by
  obtain ⟨object, found, holds⟩ := holds
  obtain ⟨later, known, same | ⟨taken, projects, advanced⟩⟩ :=
    requests_of_step coherent stepped found
  · exact ⟨later, known, same ▸ holds⟩
  · have running := SettlementState.await_of_reached (coherent.reached _ _ found)
    refine ⟨later, known, holds.step (AwaitState.unresolved_of_reached running) advanced ?_⟩
    rintro reply rfl
    cases projects
    exact unanswered reply rfl

theorem Holds.phase (holds : state.Holds fetch) : state.phase fetch = some .running := by
  obtain ⟨object, found, pooled, -, call, called, working, -⟩ := holds
  rw [phase_of_found found, SettlementState.phase_of_pool pooled called, working]

/-- While four calls hold the workers, the queue is not served. -/
theorem queue_of_holds {holders : List FetchId} (scheduled : state.Scheduled)
    (distinct : holders.Nodup) (all : holders.length = requestExecutorMaxWorkers)
    (holds : ∀ fetch ∈ holders, state.Holds fetch) {label : ProcessLabel}
    (stepped : requestProcess.step state label = some next) :
    ∃ added, next.queue = state.queue ++ added := by
  have busy : requestExecutorMaxWorkers ≤ state.running.length := by
    have within : holders ⊆ state.running := fun fetch member =>
      (scheduled.running fetch).mpr (holds fetch member).phase
    exact all ▸ (distinct.subperm within).length_le
  cases processSteps_of_step stepped with
  | create | collect | call | arrive | publish | tick => exact ⟨[], (List.append_nil _).symm⟩
  | @submit fetch _ _ raises =>
      cases raises with
      | true => exact ⟨[], (List.append_nil _).symm⟩
      | false => exact ⟨[fetch], rfl⟩
  | act found taken permitted =>
      refine ⟨[], ?_⟩
      rw [List.append_nil]
      rcases schedule_cases permitted with ⟨-, -, rest, head, room, rfl⟩ | ⟨-, -, rfl⟩ |
        ⟨-, rfl⟩ | ⟨-, -, rfl⟩
      · exact absurd room (Nat.not_lt.mpr busy)
      · rfl
      · rfl
      · rfl

end ProcessState

/-- Four `_fetch` calls without a deadline, on futures that nothing arrives for, stop the
executor: in every run the queue only grows. -/
theorem requestProcess_starves {state later : ProcessState} {holders : List FetchId}
    (reached : requestProcess.Reached System.Free state) (distinct : holders.Nodup)
    (all : holders.length = requestExecutorMaxWorkers)
    (holds : ∀ fetch ∈ holders, state.Holds fetch)
    (along : requestProcess.Along (ProcessState.NoAnswer holders) state later) :
    ∃ added, later.queue = state.queue ++ added := by
  have kept : (∃ added, later.queue = state.queue ++ added) ∧
      (∀ fetch ∈ holders, later.Holds fetch) ∧ requestProcess.Reached System.Free later := by
    apply along.invariant fun current => (∃ added, current.queue = state.queue ++ added) ∧
      (∀ fetch ∈ holders, current.Holds fetch) ∧ requestProcess.Reached System.Free current
    · exact ⟨⟨[], (List.append_nil _).symm⟩, holds, reached⟩
    · rintro current label next ⟨⟨added, queue⟩, holding, running⟩ unanswered stepped
      have coherent := ProcessState.coherent_of_reached running
      obtain ⟨more, extended⟩ := ProcessState.queue_of_holds
        (ProcessState.scheduled_of_reached running) distinct all holding stepped
      exact ⟨⟨added ++ more, by rw [extended, queue, List.append_assoc]⟩,
        fun fetch member => (holding fetch member).step coherent
          (fun reply same => by subst same; exact unanswered fetch member rfl) stepped,
        running.take label trivial stepped⟩
  exact kept.1

/-- Four requests of which none is answered, and a fifth with a timeout, which passes
before the request has a worker. -/
theorem requestProcess_starves_fifth :
    ∃ state later : ProcessState, state.queue = [(4, 0)] ∧
      later.phase (4, 0) = some .queued ∧ later.now = 60 ∧
      ∃ added, later.queue = state.queue ++ added := by
  let holders : List FetchId := [(0, 0), (1, 0), (2, 0), (3, 0)]
  let begun : List ProcessLabel := holders.flatMap fun fetch =>
    [.create (fetch.1 + 7), .call fetch.1 "async_request" none, .submit fetch false,
      .act fetch .begin]
  let origin : List ProcessLabel :=
    begun ++ [.create 20, .call 4 "async_request" (some ⟨30, "30.0"⟩), .submit (4, 0) false]
  let labels : List ProcessLabel :=
    [.tick 60, .act (4, 0) .expire, .act (2, 0) (.poll (.ok true)), .act (2, 0) .check]
  have ran : ((requestProcess.run System.Free requestProcess.initial origin).bind fun state =>
      (requestProcess.run (ProcessState.NoAnswer holders) state labels).map fun later =>
        (state.queue, decide (∀ fetch ∈ holders, state.Holds fetch), later.phase (4, 0),
          later.now)) = some ([(4, 0)], true, some .queued, 60) := by
    decide +kernel
  obtain ⟨state, taken, rest⟩ := Option.bind_eq_some_iff.mp ran
  obtain ⟨later, waited, observed⟩ := Option.map_eq_some_iff.mp rest
  simp only [Prod.mk.injEq] at observed
  obtain ⟨queue, holding, waits, clock⟩ := observed
  exact ⟨state, later, queue, waits, clock,
    requestProcess_starves (System.along_of_run taken) (by decide) rfl (of_decide_eq_true holding)
      (System.along_of_run waited)⟩

end ObscuraProto
