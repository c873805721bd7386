import ObscuraProto.Bridge.FetchPool
import ObscuraProto.Bridge.FetchWork
import ObscuraProto.Library.Ranking

/-!
# The request executor drains

A `_fetch` with a deadline takes a bounded number of steps in every run of the process.
Once the deadlines are over the workers finish every `_fetch` handed over, in whatever
order they take their steps.
-/

namespace ObscuraProto

open Transition Processes

namespace ProcessLabel

/-- A step of a `_fetch`. -/
def isFetch : ProcessLabel → Bool
  | act _ action => action.isFetch
  | _ => false

/-- A step of the given `_fetch`. -/
def isFetchOf (fetch : FetchId) : ProcessLabel → Bool
  | act other action => other == fetch && action.isFetch
  | _ => false

end ProcessLabel

/-- What is no step of a call keeps its worker and its deadline. -/
theorem SettlementState.kept_of_step {state next : SettlementState} {label : SettlementLabel}
    {id : CallId} {call : Call} (taken : settlement.step state label = some next)
    (apart : ∀ id action, label ≠ .await (.act id action))
    (found : state.await.calls[id]? = some call) :
    ∃ later, next.await.calls[id]? = some later ∧ later.worker = call.worker ∧
      later.deadline = call.deadline := by
  cases label with
  | submit other raises =>
      obtain ⟨-, rfl⟩ := step_submit taken
      exact ⟨call, found, rfl, rfl⟩
  | await label =>
      obtain ⟨after, steps, rfl⟩ := step_await taken
      cases steps with
      | act => exact absurd rfl (apart _ _)
      | arrive | tick => exact ⟨call, found, rfl, rfl⟩
      | start =>
          refine ⟨call, ?_, rfl, rfl⟩
          simp only [record]
          rw [List.getElem?_append_left (List.getElem?_eq_some_iff.mp found).1, found]
      | publish queued =>
          simp only [record, List.getElem?_modify, found, Option.map_eq_map, Option.map_some]
          refine ⟨_, rfl, ?_⟩
          split
          · exact ⟨call.worker_publish _, call.deadline_publish _⟩
          · exact ⟨rfl, rfl⟩

namespace ProcessState

variable {state next : ProcessState} {fetch : FetchId} {call : Call} {object : FutureObject}

def callOf (state : ProcessState) (fetch : FetchId) : Option Call :=
  state.objects[fetch.1]?.bind (·.requests.await.calls[fetch.2]?)

/-- The work left for a `_fetch`. -/
def workOf (state : ProcessState) (fetch : FetchId) : Nat :=
  (state.callOf fetch).elim 0 (·.work state.now)

/-- The work left for all of them. -/
def work (state : ProcessState) : Nat :=
  (state.objects.map fun object =>
    (object.requests.await.calls.map (·.work state.now)).sum).sum

theorem callOf_iff : state.callOf fetch = some call ↔ ∃ object,
    state.objects[fetch.1]? = some object ∧ object.requests.await.calls[fetch.2]? = some call :=
  Option.bind_eq_some_iff

theorem callOf_of_found (found : state.objects[fetch.1]? = some object) :
    state.callOf fetch = object.requests.await.calls[fetch.2]? := by
  rw [callOf, found]
  rfl

/-! ## The work of one `_fetch` -/

/-- A step of a call, from the state of the call to the state of the process. -/
theorem Coherent.acted_of_step (coherent : state.Coherent) {action : Action}
    (stepped : requestProcess.step state (.act fetch action) = some next) :
    ∃ object requests call between after granted, state.objects[fetch.1]? = some object ∧
      object.requests.await.calls[fetch.2]? = some call ∧
        object.requests.await.act fetch.2 call action = some (between, after) ∧
          requests = object.requests.record (.act fetch.2 action)
            { between with calls := object.requests.await.calls.set fetch.2 after } ∧
            state.schedule fetch action = some granted ∧
              next.objects = state.objects.set fetch.1 { object with requests } ∧
                next.now = state.now := by
  cases processSteps_of_step stepped with
  | @act _ _ object requests granted found seen permitted =>
      have clock := schedule_now permitted
      obtain ⟨-, taken⟩ := coherent.taken found seen
      simp only [settlement, SettlementState.step] at taken
      split at taken
      · obtain ⟨later, acting, rfl⟩ := Option.map_eq_some_iff.mp taken
        obtain ⟨call, between, after, called, acted, rfl⟩ := AwaitState.act_of_step acting
        exact ⟨object, _, call, between, after, granted, found, called, acted, rfl, permitted, rfl,
          clock⟩
      · cases taken

/-- A step of a call changes no other. -/
theorem callOf_set {requests : SettlementState} {action : Action} {after : Call}
    {between : AwaitState} (found : state.objects[fetch.1]? = some object)
    (called : object.requests.await.calls[fetch.2]? = some call)
    (recorded : requests = object.requests.record (.act fetch.2 action)
      { between with calls := object.requests.await.calls.set fetch.2 after })
    (objects : next.objects = state.objects.set fetch.1 { object with requests })
    (other : FetchId) :
    next.callOf other = if other = fetch then some after else state.callOf other := by
  subst recorded
  rw [callOf, objects, getElem?_set_of_found found]
  by_cases same : other.1 = fetch.1
  · have here : state.callOf other = object.requests.await.calls[other.2]? :=
      callOf_of_found (same ▸ found)
    simp only [same, if_true, Option.bind_some, SettlementState.record,
      getElem?_set_of_found called, here, Prod.ext_iff, true_and]
  · rw [if_neg same, if_neg fun both => same (congrArg Prod.fst both), callOf]

/-- A step leaves a call alone, publishes to it or is one of its own. -/
theorem Coherent.call_of_step {label : ProcessLabel} (coherent : state.Coherent)
    (stepped : requestProcess.step state label = some next)
    (found : state.callOf fetch = some call) :
    ∃ later, next.callOf fetch = some later ∧ later.deadline = call.deadline ∧
      (later.worker = call.worker ∧ label.isFetchOf fetch = false ∨
        ∃ action await between, label = .act fetch action ∧ await.now = state.now ∧
          next.now = state.now ∧
          AwaitState.act await fetch.2 call action = some (between, later)) := by
  cases label with
  | act other action =>
      obtain ⟨object, requests, acting, between, after, granted, known, called, acted, recorded,
        -, objects, clock⟩ := coherent.acted_of_step stepped
      rw [callOf_set known called recorded objects]
      by_cases same : fetch = other
      · subst same
        rw [callOf_of_found known, called] at found
        cases found
        exact ⟨after, if_pos rfl, (acts_of_act acted).call_kept.2,
          .inr ⟨action, _, between, rfl, coherent.clock _ _ known, clock, acted⟩⟩
      · refine ⟨call, by rw [if_neg same, found], rfl, .inl ⟨rfl, ?_⟩⟩
        simp [ProcessLabel.isFetchOf, Ne.symm same]
  | create | collect | call | submit | publish | arrive | tick =>
      obtain ⟨object, known, called⟩ := callOf_iff.mp found
      obtain ⟨later, foundLater, same | ⟨taken, projects, advanced⟩⟩ :=
        requests_of_step coherent stepped known
      · refine ⟨call, ?_, rfl, .inl ⟨rfl, rfl⟩⟩
        rw [callOf_of_found foundLater, same, called]
      · obtain ⟨current, kept, worker, deadline⟩ :=
          SettlementState.kept_of_step advanced (by cases projects <;> simp) called
        exact ⟨current, by rw [callOf_of_found foundLater, kept], deadline, .inl ⟨worker, rfl⟩⟩

/-- No step brings back work on a limited `_fetch`, and its own steps use it up. -/
theorem Coherent.work_step {label : ProcessLabel} (coherent : state.Coherent)
    (stepped : requestProcess.step state label = some next)
    (found : state.callOf fetch = some call) {deadline : Rat}
    (limited : call.deadline = some deadline) :
    next.workOf fetch + (label.isFetchOf fetch).toNat ≤ state.workOf fetch := by
  obtain ⟨later, known, same, moved⟩ := coherent.call_of_step stepped found
  simp only [workOf, known, found, Option.elim_some]
  rcases moved with ⟨worker, apart⟩ | ⟨action, await, between, rfl, clock, still, acted⟩
  · have forward : state.now ≤ next.now := now_le_of_step stepped
    rw [apart, Bool.toNat_false, Nat.add_zero]
    calc
      later.work next.now = call.work next.now := by simp only [Call.work, same, worker]
      _ ≤ call.work state.now := call.work_anti forward
  · have used := work_act acted limited
    rw [clock] at used
    simpa [ProcessLabel.isFetchOf, still] using used

/-- The process has a call with this deadline. -/
def Limited (state : ProcessState) (fetch : FetchId) (deadline : Rat) : Prop :=
  ∃ call, state.callOf fetch = some call ∧ call.deadline = some deadline

/-- The work of a limited `_fetch` ranks the states of the process. -/
def fetchRanking (fetch : FetchId) (deadline : Rat) :
    requestProcess.Ranking System.Free
      (fun state => state.Coherent ∧ state.Limited fetch deadline)
      (·.isFetchOf fetch) where
  rank := (·.workOf fetch)
  kept := by
    rintro state label next ⟨coherent, call, found, limited⟩ - stepped
    obtain ⟨later, known, same, -⟩ := coherent.call_of_step stepped found
    exact ⟨coherent.step stepped, later, known, same.trans limited⟩
  lowered := by
    rintro state label next ⟨coherent, call, found, limited⟩ - stepped own
    have used := coherent.work_step stepped found limited
    rw [own, Bool.toNat_true] at used
    exact used
  unraised := by
    rintro state label next ⟨coherent, call, found, limited⟩ - stepped
    exact Nat.le_of_add_right_le (coherent.work_step stepped found limited)

theorem work_le {deadline now : Rat} (limited : call.deadline = some deadline) :
    call.work now ≤ 2 * sleepsLeft deadline now + 5 := by
  simp only [Call.work, limited]
  cases call.worker with
  | polling notBefore =>
      have fewer : sleepsLeft deadline (max notBefore now) ≤ sleepsLeft deadline now :=
        sleepsLeft_anti (le_max_right _ _)
      simp only [Worker.work]
      omega
  | queued | checking | consuming | claimed | publishing | finished =>
      simp only [Worker.work]
      omega

/-! ## All of them -/

/-- The deadlines of all `_fetch` calls not over have passed. -/
def Overdue (state : ProcessState) : Prop :=
  ∀ object ∈ state.objects, ∀ call ∈ object.requests.await.calls, call.worker ≠ .finished →
    ∃ deadline ∈ call.deadline, deadline ≤ state.now

instance : DecidablePred Overdue :=
  fun state => inferInstanceAs (Decidable (∀ object ∈ state.objects, _))

theorem overdue_iff : state.Overdue ↔ ∀ fetch call, state.callOf fetch = some call →
    call.worker ≠ .finished → ∃ deadline, call.deadline = some deadline ∧ deadline ≤ state.now := by
  constructor
  · intro overdue fetch call found
    obtain ⟨object, known, called⟩ := callOf_iff.mp found
    exact overdue object (List.mem_of_getElem? known) call (List.mem_of_getElem? called)
  · intro overdue object member call called
    obtain ⟨future, known⟩ := List.mem_iff_getElem?.mp member
    obtain ⟨id, found⟩ := List.mem_iff_getElem?.mp called
    exact overdue (future, id) call (callOf_iff.mpr ⟨object, known, found⟩)

/-- Every `_fetch` that was handed over is over. -/
def Drained (state : ProcessState) : Prop :=
  ∀ (fetch : FetchId) (object : FutureObject) (call : Call),
    state.objects[fetch.1]? = some object →
      object.requests.await.calls[fetch.2]? = some call →
        object.requests.submissions[fetch.2]? ≠ some .pending → call.worker = .finished

/-- No `_fetch` can take a step. -/
def Idle (state : ProcessState) : Prop :=
  ∀ fetch action, action.isFetch = true → requestProcess.step state (.act fetch action) = none

/-- A step of a call that its future and the executor permit is one of the process. -/
theorem Coherent.step_ne_none (coherent : state.Coherent) {action : Action} {after : Call}
    {between : AwaitState} {granted : ProcessState}
    (found : state.objects[fetch.1]? = some object)
    (called : object.requests.await.calls[fetch.2]? = some call)
    (unfinished : call.worker ≠ .finished)
    (submitted : object.requests.submissions[fetch.2]? ≠ some .pending)
    (acted : object.requests.await.act fetch.2 call action = some (between, after))
    (permitted : state.schedule fetch action = some granted) :
    requestProcess.step state (.act fetch action) ≠ none := by
  have live : object.live = true := by
    by_contra dead
    have idle := coherent.idle fetch.1 object found (by simpa using dead)
    exact unfinished (idle call (List.mem_of_getElem? called)).1
  have handed := SettlementState.handed_of_reached (coherent.reached _ _ found)
  have bound : fetch.2 < object.requests.submissions.length :=
    handed.length ▸ (List.getElem?_eq_some_iff.mp called).1
  have ready : object.requests.submitted (.act fetch.2 action) = true := by
    simp only [SettlementState.submitted, List.getElem?_eq_getElem bound, Option.any_some]
    simpa [List.getElem?_eq_getElem bound] using submitted
  simp only [requestProcess, ProcessState.step, found, coherent.seeing_eq found live,
    SettlementState.step, ready, if_true, AwaitState.step, called, acted, permitted,
    Option.map_some]
  simp

theorem schedule_ne_begin {action : Action} (state : ProcessState) (fetch : FetchId)
    (apart : action ≠ .begin) : ∃ granted, state.schedule fetch action = some granted := by
  cases action with
  | begin => exact absurd rfl apart
  | post => exact ⟨_, rfl⟩
  | poll | check | claim | get | resume | expire | cancel => exact ⟨state, rfl⟩

theorem call_of_phase {phase : FetchPhase} (phased : state.phase fetch = some phase) :
    ∃ object call, state.objects[fetch.1]? = some object ∧
      object.requests.await.calls[fetch.2]? = some call ∧
        object.requests.submissions[fetch.2]? = some .pool ∧ call.worker.phase = some phase := by
  obtain ⟨object, found, inside⟩ := Option.bind_eq_some_iff.mp phased
  rw [SettlementState.phase] at inside
  split at inside
  · next pooled =>
      obtain ⟨call, called, same⟩ := Option.bind_eq_some_iff.mp inside
      exact ⟨object, call, found, called, pooled, same⟩
  · cases inside

section Idle

variable (coherent : state.Coherent) (idle : state.Idle)
include coherent idle

/-- No `_fetch` waits for a thread that is there. -/
theorem Idle.waiting (found : state.objects[fetch.1]? = some object)
    (called : object.requests.await.calls[fetch.2]? = some call)
    (submitted : object.requests.submissions[fetch.2]? ≠ some .pending)
    (waits : call.worker = .queued) : state.takeUp fetch = none := by
  by_contra possible
  obtain ⟨granted, permitted⟩ := Option.ne_none_iff_exists'.mp possible
  have acted : object.requests.await.act fetch.2 call .begin =
      some (object.requests.await, { call with worker := .polling object.requests.await.now }) := by
    simp only [AwaitState.act, waits]
  exact coherent.step_ne_none found called (by simp [waits]) submitted acted permitted
    (idle fetch .begin rfl)

variable (overdue : state.Overdue)
include overdue

/-- A `_fetch` that has begun is not held up. -/
theorem Overdue.begun (found : state.objects[fetch.1]? = some object)
    (called : object.requests.await.calls[fetch.2]? = some call)
    (submitted : object.requests.submissions[fetch.2]? ≠ some .pending)
    (begun : call.worker ≠ .queued) : call.worker = .finished := by
  by_contra unfinished
  obtain ⟨deadline, limited, late⟩ :=
    overdue_iff.mp overdue fetch call (callOf_iff.mpr ⟨object, found, called⟩) unfinished
  have running := SettlementState.await_of_reached (coherent.reached _ _ found)
  obtain ⟨action, between, after, isFetch, apart, acted⟩ :=
    (AwaitState.steady_of_reached running).exists_act called limited
      ((coherent.clock _ _ found).symm ▸ late) unfinished begun
  obtain ⟨granted, permitted⟩ := schedule_ne_begin state fetch apart
  exact coherent.step_ne_none found called unfinished submitted acted permitted
    (idle fetch action isFetch)

/-- Past the deadlines the executor stops only when nothing is left to do. -/
theorem Overdue.drained (scheduled : state.Scheduled) : state.Drained := by
  have unused : state.running = [] := by
    by_contra busy
    obtain ⟨first, rest, running⟩ := List.exists_cons_of_ne_nil busy
    have phased := (scheduled.running first).mp (by simp [running])
    obtain ⟨object, call, found, called, pooled, working⟩ := call_of_phase phased
    have ended := Overdue.begun coherent idle overdue found called (by simp [pooled])
      (by intro queued; simp [queued, Worker.phase] at working)
    simp [ended, Worker.phase] at working
  intro fetch object call found called submitted
  by_contra unfinished
  have waits : call.worker = .queued := by
    by_contra begun
    exact unfinished (Overdue.begun coherent idle overdue found called submitted begun)
  by_cases pooled : object.requests.submissions[fetch.2]? = some .pool
  · have phased : state.phase fetch = some .queued := by
      rw [phase_of_found found, SettlementState.phase_of_pool pooled called, waits]
      rfl
    -- The head of the queue could begin, since no worker is busy.
    obtain ⟨head, rest, queue⟩ :=
      List.exists_cons_of_ne_nil (List.ne_nil_of_mem ((scheduled.queued fetch).mpr phased))
    obtain ⟨object, call, found, called, pooled, working⟩ :=
      call_of_phase ((scheduled.queued head).mp (by simp [queue]))
    have headWaits : call.worker = .queued := by
      cases worker : call.worker with
      | queued => rfl
      | polling | checking | consuming | claimed | publishing | finished =>
          simp [worker, Worker.phase] at working
    have refused := Idle.waiting coherent idle found called (by simp [pooled]) headWaits
    simp [takeUp, (pooled_iff found).mpr pooled, queue, unused, requestExecutorMaxWorkers]
      at refused
  · have refused := Idle.waiting coherent idle found called submitted waits
    have free : state.pooled fetch = false := by
      by_contra taken
      exact pooled ((pooled_iff found).mp (by simpa using taken))
    simp [takeUp, free] at refused

end Idle

theorem isFetch_unfinished {await between : AwaitState} {id : CallId} {action : Action}
    {after : Call} (acts : Acts await id call action between after)
    (isFetch : action.isFetch = true) : call.worker ≠ .finished := by
  cases acts with
  | begin working | pollReady working | pollPending working | pollFails working | sleep working
  | giveUp working | claim working | refuse working | get working | getInvalid working
  | post working => simp [working]
  | resume | expire | cancel => cases isFetch

/-- A step of a limited `_fetch` uses up work of the process. -/
theorem Coherent.work_lt (coherent : state.Coherent) (overdue : state.Overdue) {action : Action}
    (isFetch : action.isFetch = true)
    (stepped : requestProcess.step state (.act fetch action) = some next) :
    next.work < state.work ∧ next.Overdue := by
  obtain ⟨object, requests, call, between, after, granted, found, called, acted, recorded, -,
    objects, clock⟩ := coherent.acted_of_step stepped
  have acts := acts_of_act acted
  have here := callOf_iff.mpr ⟨object, found, called⟩
  obtain ⟨deadline, limited, late⟩ :=
    overdue_iff.mp overdue fetch call here (isFetch_unfinished acts isFetch)
  constructor
  · have used := work_act acted limited
    rw [isFetch, Bool.toNat_true, coherent.clock _ _ found] at used
    have inCall := sum_map_set (·.work state.now) called after
    have inObject := sum_map_set
      (fun object => (object.requests.await.calls.map (·.work state.now)).sum) found
      { object with requests }
    have calls : requests.await.calls = object.requests.await.calls.set fetch.2 after := by
      rw [recorded]
      rfl
    simp only [calls] at inObject
    simp only [work, objects, clock]
    omega
  · rw [overdue_iff, clock]
    intro other current known unfinished
    rw [callOf_set found called recorded objects] at known
    split at known
    · cases known
      exact ⟨deadline, acts.call_kept.2.trans limited, late⟩
    · exact overdue_iff.mp overdue other current known unfinished

/-- The process where only `_fetch` calls take steps. -/
def OnlyFetch (_ : ProcessState) (label : ProcessLabel) : Prop :=
  label.isFetch = true

instance (state : ProcessState) (label : ProcessLabel) : Decidable (OnlyFetch state label) :=
  inferInstanceAs (Decidable (_ = _))

/-- The work left ranks the states past the deadlines. -/
def drainRanking : requestProcess.Ranking OnlyFetch
    (fun state => state.Coherent ∧ state.Scheduled ∧ state.Overdue) (fun _ => true) where
  rank := (·.work)
  kept := by
    rintro state label next ⟨coherent, scheduled, overdue⟩ isFetch stepped
    cases label with
    | act fetch action =>
        exact ⟨coherent.step stepped, scheduled.step coherent stepped,
          (coherent.work_lt overdue isFetch stepped).2⟩
    | create | collect | call | submit | publish | arrive | tick => cases isFetch
  lowered := by
    rintro state label next ⟨coherent, scheduled, overdue⟩ isFetch stepped -
    cases label with
    | act fetch action => exact (coherent.work_lt overdue isFetch stepped).1
    | create | collect | call | submit | publish | arrive | tick => cases isFetch
  unraised := by
    rintro state label next ⟨coherent, scheduled, overdue⟩ isFetch stepped
    cases label with
    | act fetch action => exact (coherent.work_lt overdue isFetch stepped).1.le
    | create | collect | call | submit | publish | arrive | tick => cases isFetch

end ProcessState

/-- A `_fetch` with a deadline takes a bounded number of steps in every run from any
state reached: two for every poll interval until the deadline and five more. -/
theorem requestProcess_fetch_bounded {state later : ProcessState} {labels : List ProcessLabel}
    {fetch : FetchId} {call : Call} {deadline : Rat}
    (reached : requestProcess.Reached System.Free state)
    (found : state.callOf fetch = some call) (limited : call.deadline = some deadline)
    (ran : requestProcess.run System.Free state labels = some later) :
    labels.countP (·.isFetchOf fetch) ≤
      2 * ⌈(deadline - state.now) / callbackPollInterval⌉₊ + 5 := by
  have bounded := (ProcessState.fetchRanking fetch deadline).countP_add_rank_le
    ⟨ProcessState.coherent_of_reached reached, call, found, limited⟩ ran
  calc
    _ ≤ state.workOf fetch := Nat.le_of_add_right_le bounded
    _ = call.work state.now := by rw [ProcessState.workOf, found]; rfl
    _ ≤ _ := ProcessState.work_le limited

/-- Two sleeps and three polls, and the outcome of the third is posted. -/
theorem requestProcess_fetch_bounded_expired :
    ∃ labels : List ProcessLabel, labels.countP (·.isFetchOf (0, 0)) = 8 ∧
      labels.countP (·.isFetchOf (0, 0)) ≤
        2 * ⌈((1 / 10 : Rat) - 0) / callbackPollInterval⌉₊ + 5 := by
  let origin : List ProcessLabel :=
    [.create 7, .call 0 "async_request" (some ⟨1 / 10, "0.1"⟩), .submit (0, 0) false]
  let labels : List ProcessLabel :=
    [.act (0, 0) .begin, .act (0, 0) (.poll (.ok true)), .act (0, 0) .check, .tick (1 / 20),
      .act (0, 0) (.poll (.ok true)), .act (0, 0) .check, .tick (1 / 20),
      .act (0, 0) (.poll (.ok true)), .act (0, 0) .check, .act (0, 0) .expire,
      .act (0, 0) .post]
  have ran : ((requestProcess.run System.Free requestProcess.initial origin).bind fun state =>
      (requestProcess.run System.Free state labels).map fun _ =>
        (state.now, (state.callOf (0, 0)).map (·.deadline))) = some (0, some (some (1 / 10))) := by
    decide +kernel
  obtain ⟨state, taken, rest⟩ := Option.bind_eq_some_iff.mp ran
  obtain ⟨later, fetched, observed⟩ := Option.map_eq_some_iff.mp rest
  obtain ⟨clock, called⟩ := Prod.mk.inj observed
  obtain ⟨call, found, limited⟩ := Option.map_eq_some_iff.mp called
  have bounded := requestProcess_fetch_bounded (System.along_of_run taken) found limited fetched
  exact ⟨labels, rfl, clock ▸ bounded⟩

/-- Past the deadlines the workers drain the executor: they take a bounded number of
steps, whatever their order, and stop only when every `_fetch` handed over is over. -/
theorem requestProcess_drains {state later : ProcessState} {labels : List ProcessLabel}
    (reached : requestProcess.Reached System.Free state) (overdue : state.Overdue)
    (ran : requestProcess.run ProcessState.OnlyFetch state labels = some later) :
    labels.length ≤ state.work ∧ (later.Idle → later.Drained) := by
  have inside := And.intro (ProcessState.coherent_of_reached reached)
    (And.intro (ProcessState.scheduled_of_reached reached) overdue)
  have bounded := ProcessState.drainRanking.countP_add_rank_le inside ran
  have after := ProcessState.drainRanking.domain_of_run inside ran
  rw [List.countP_true] at bounded
  exact ⟨Nat.le_of_add_right_le bounded, fun idle =>
    ProcessState.Overdue.drained after.1 idle after.2.2 after.2.1⟩

/-- Two `_fetch` calls past their deadlines, one of them still waiting for a worker. -/
theorem requestProcess_drains_two :
    ∃ (state later : ProcessState) (labels : List ProcessLabel), state.Overdue ∧
      state.queue = [(1, 0)] ∧
      requestProcess.run ProcessState.OnlyFetch state labels = some later ∧
      labels.length ≤ state.work ∧ (later.Idle → later.Drained) := by
  let origin : List ProcessLabel :=
    [.create 7, .create 8, .call 0 "async_request" (some ⟨1, "1"⟩), .submit (0, 0) false,
      .call 1 "async_request" (some ⟨2, "2"⟩), .submit (1, 0) false, .act (0, 0) .begin, .tick 3]
  let labels : List ProcessLabel :=
    [.act (0, 0) (.poll (.ok true)), .act (1, 0) .begin, .act (1, 0) (.poll (.ok true)),
      .act (1, 0) .check, .act (0, 0) .check, .act (1, 0) .post, .act (0, 0) .post]
  have ran : ((requestProcess.run System.Free requestProcess.initial origin).bind fun state =>
      (requestProcess.run ProcessState.OnlyFetch state labels).map fun _ =>
        (state.queue, decide state.Overdue)) = some ([(1, 0)], true) := by
    decide +kernel
  obtain ⟨state, taken, rest⟩ := Option.bind_eq_some_iff.mp ran
  obtain ⟨later, fetched, observed⟩ := Option.map_eq_some_iff.mp rest
  obtain ⟨queue, late⟩ := Prod.mk.inj observed
  have overdue := of_decide_eq_true late
  exact ⟨state, later, labels, overdue, queue, fetched,
    requestProcess_drains (System.along_of_run taken) overdue fetched⟩

end ObscuraProto
