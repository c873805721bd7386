import Mathlib.Tactic.Linarith
import ObscuraProto.Bridge.Transit

/-!
# Timed-out and cancelled waits

A wait that ends early should leave the native future to later calls.  The worker looks
neither at its caller nor, once the response is there, at its deadline.  So this holds in
the runs where the response comes when no caller that left has a worker that may still
take it, and callers leave before the response is there or when their worker will not
take it.
-/

namespace ObscuraProto

open Transition Processes

/-- The call ended by `TimeoutError` or cancellation. -/
def Ending.isLost : Ending → Bool
  | .returned _ => false
  | .raised e => e.isTimeout
  | .cancelled => true

/-- The native future is resolved with the timeout of the C++ layer. -/
def Reply.isTimeout : Reply → Bool
  | .ok _ => false
  | .error e => e.isTimeout

theorem Call.isLost_endingOf (call : Call) {outcome : Reply}
    (answered : Reply.isTimeout outcome = false) : (call.endingOf outcome).isLost = false := by
  cases outcome with
  | ok payload => rfl
  | error e =>
      rw [Reply.isTimeout] at answered
      simp [endingOf, answered, Ending.isLost]

@[simp] theorem Call.ending_publish (call : Call) (outcome : Reply) :
    (call.publish outcome).ending = call.ending := by
  rw [publish_eq]
  split <;> rfl

namespace AwaitState

/-- The worker of the call may still pass the single-use check, or is about to call
`get()`. -/
def mayTake (state : AwaitState) (call : Call) : Bool :=
  match call.worker with
  | .queued | .polling _ | .consuming => !state.consumed
  -- After the deadline it gives up.
  | .checking => !state.consumed && call.deadline.all (state.now < ·)
  | .claimed => true
  | .publishing _ | .finished => false

instance (state : AwaitState) (id : CallId) (call : Call) (outcome : Reply) :
    Decidable (state.Carries id call outcome) :=
  inferInstanceAs (Decidable (_ ∨ _ ∨ _))

/-- The condition on the events around the workers, which take their steps as they like.
The response arrives when no caller that left has a worker that may take it, or no call
at all if it is the C++ layer's own timeout, after which none starts.  A caller leaves
when there is no response, or its worker will not take it and has not taken it. -/
def Timely (state : AwaitState) : AwaitLabel → Prop
  | .arrive reply => ∀ call ∈ state.calls,
      call.ending ≠ none ∨ Reply.isTimeout reply = true → state.mayTake call = false
  | .act id .expire | .act id .cancel => ∀ reply ∈ state.reply, Reply.isTimeout reply = false →
      ∀ call ∈ state.calls[id]?, state.mayTake call = false ∧ ¬ state.Carries id call reply
  | .start .. => ∀ reply ∈ state.reply, Reply.isTimeout reply = false
  | _ => True

instance (state : AwaitState) : DecidablePred state.Timely
  | .arrive _ => inferInstanceAs (Decidable (∀ call ∈ state.calls, _))
  | .act _ .expire | .act _ .cancel | .start .. =>
      inferInstanceAs (Decidable (∀ reply ∈ state.reply, _))
  | .publish | .tick _ => isTrue trivial
  | .act _ .begin | .act _ (.poll _) | .act _ .check | .act _ .claim | .act _ .get
  | .act _ .post | .act _ .resume => isTrue trivial

/-! ## Workers that will not take the response -/

variable {state next : AwaitState} {id : CallId} {call after : Call} {ending : Ending}

/-- Time and other calls bring no worker back. -/
theorem mayTake_of_later (consumed : state.consumed = true → next.consumed = true)
    (now : state.now ≤ next.now) (takes : next.mayTake call = true) :
    state.mayTake call = true := by
  have unused : next.consumed = false → state.consumed = false := by
    intro unused
    by_contra used
    rw [consumed (by simpa using used)] at unused
    cases unused
  rw [mayTake] at takes ⊢
  cases worker : call.worker with
  | queued | polling | consuming =>
      simp only [worker, Bool.not_eq_eq_eq_not, Bool.not_true] at takes ⊢
      exact unused takes
  | checking =>
      simp only [worker, Bool.and_eq_true, Bool.not_eq_eq_eq_not, Bool.not_true] at takes ⊢
      refine ⟨unused takes.1, ?_⟩
      cases limited : call.deadline with
      | none => rfl
      | some deadline =>
          have early := takes.2
          simp only [limited, Option.all_some, decide_eq_true_eq] at early ⊢
          exact lt_of_le_of_lt now early
  | claimed => rfl
  | publishing | finished =>
      rw [worker] at takes
      cases takes

/-- No step of a worker brings it back. -/
theorem mayTake_of_acts {action : Action} (acts : Acts state id call action next after)
    (takes : next.mayTake after = true) : state.mayTake call = true := by
  cases acts with
  | begin queued =>
      simp only [mayTake, queued] at takes ⊢
      exact takes
  | pollReady polling =>
      simp only [mayTake, polling, touch] at takes ⊢
      exact takes
  | pollPending polling =>
      simp only [mayTake, polling, touch, Bool.and_eq_true] at takes ⊢
      exact takes.1
  | sleep checking early =>
      simp only [mayTake, checking, Bool.and_eq_true, Option.all_eq_true, decide_eq_true_eq]
        at takes ⊢
      exact ⟨takes, early⟩
  | claim consuming unused => simp [mayTake, consuming, unused]
  | pollFails | giveUp | refuse | get | getInvalid | post => cases takes
  | resume | expire | cancel => exact takes

theorem mayTake_of_claimed (claimed : call.worker = .claimed) : state.mayTake call = true := by
  simp [mayTake, claimed]

/-! ## What such runs keep -/

/-- Nobody takes the C++ layer's own timeout, no worker whose caller is lost may take the
response, and none has taken it. -/
structure LeftAlone (state : AwaitState) : Prop where
  timeout : ∀ reply, state.reply = some reply → Reply.isTimeout reply = true →
    state.consumed = false ∧ ∀ (id : CallId) (call : Call), state.calls[id]? = some call →
      state.mayTake call = false
  lost : ∀ reply, state.reply = some reply → ∀ (id : CallId) (call : Call) (ending : Ending),
    state.calls[id]? = some call → call.ending = some ending → ending.isLost = true →
      state.mayTake call = false
  taken : ∀ (id : CallId) (call : Call) (ending : Ending), state.calls[id]? = some call →
    .get id ∈ state.touches → call.ending = some ending → ending.isLost = false

/-- A call that has passed the single-use check is not lost. -/
theorem LeftAlone.owner (alone : state.LeftAlone) (owned : state.Ownership)
    (transit : state.Transit) (found : state.calls[id]? = some call) (owns : state.Owns id)
    (ended : call.ending = some ending) : ending.isLost = false := by
  rcases owns with got | claims
  · exact alone.taken id call ending found got ended
  · by_contra lost
    cases replied : state.reply with
    | none => exact transit.not_owns owned replied id (.inr claims)
    | some reply =>
        have idle := alone.lost reply replied id call ending found ended (by simpa using lost)
        obtain ⟨claimer, known, claimed⟩ := claims
        rw [found] at known
        cases known
        rw [mayTake_of_claimed claimed] at idle
        cases idle

/-- A step of one call. -/
theorem LeftAlone.act (alone : state.LeftAlone) (calls : next.calls = state.calls.set id after)
    (reply : next.reply = state.reply) (now : next.now = state.now)
    (consumed : state.consumed = true → next.consumed = true)
    (unconsumed : ∀ reply, state.reply = some reply → Reply.isTimeout reply = true →
      next.consumed = false)
    (gets : ∀ other, other ≠ id → .get other ∈ next.touches → .get other ∈ state.touches)
    (timeout : ∀ reply, state.reply = some reply → Reply.isTimeout reply = true →
      next.mayTake after = false)
    (lost : ∀ reply, state.reply = some reply → ∀ ending, after.ending = some ending →
      ending.isLost = true → next.mayTake after = false)
    (taken : .get id ∈ next.touches → ∀ ending, after.ending = some ending →
      ending.isLost = false) : next.LeftAlone := by
  have idle {other : Call} (before : state.mayTake other = false) :
      next.mayTake other = false := by
    by_contra takes
    rw [mayTake_of_later consumed now.ge (by simpa using takes)] at before
    cases before
  constructor
  · intro given replied isTimeout
    rw [reply] at replied
    refine ⟨unconsumed given replied isTimeout, ?_⟩
    intro other current found
    rcases of_getElem?_set (calls ▸ found) with ⟨rfl, rfl⟩ | ⟨-, before⟩
    · exact timeout given replied isTimeout
    · exact idle ((alone.timeout given replied isTimeout).2 other current before)
  · intro given replied other current ending found ended isLost
    rw [reply] at replied
    rcases of_getElem?_set (calls ▸ found) with ⟨rfl, rfl⟩ | ⟨-, before⟩
    · exact lost given replied ending ended isLost
    · exact idle (alone.lost given replied other current ending before ended isLost)
  · intro other current ending found got ended
    rcases of_getElem?_set (calls ▸ found) with ⟨rfl, rfl⟩ | ⟨apart, before⟩
    · exact taken got ending ended
    · exact alone.taken other current ending before (gets other apart got) ended

/-- A caller that leaves in time leaves nothing behind. -/
theorem LeftAlone.leave (alone : state.LeftAlone) (owned : state.Ownership)
    (transit : state.Transit) (found : state.calls[id]? = some call) (waits : call.ending = none)
    (timely : ∀ reply ∈ state.reply, Reply.isTimeout reply = false →
      ∀ call ∈ state.calls[id]?, state.mayTake call = false ∧ ¬ state.Carries id call reply)
    (ending : Ending) :
    ({ state with calls := state.calls.set id (call.abandon ending) } : AwaitState).LeftAlone := by
  have settled (reply : Reply) (replied : state.reply = some reply) :
      state.mayTake call = false ∧ .get id ∉ state.touches := by
    cases isTimeout : Reply.isTimeout reply with
    | true =>
        obtain ⟨unused, idle⟩ := alone.timeout reply replied isTimeout
        exact ⟨idle id call found, fun got => owned.unused unused id (.inl got)⟩
    | false =>
        obtain ⟨idle, apart⟩ := timely reply replied isTimeout call found
        exact ⟨idle, fun got => apart (transit.carried id call reply found waits got replied)⟩
  refine alone.act rfl rfl rfl (·) (fun reply replied isTimeout =>
    (alone.timeout reply replied isTimeout).1) (fun _ _ => (·))
    (fun reply replied _ => (settled reply replied).1)
    (fun reply replied _ _ _ => (settled reply replied).1) ?_
  intro got
  cases replied : state.reply with
  | none => exact absurd (.inl got) (transit.not_owns owned replied id)
  | some reply => exact absurd got (settled reply replied).2

theorem owns_of_got {action : Action} {other : CallId} (found : state.calls[id]? = some call)
    (acts : Acts state id call action next after) (got : .get other ∈ next.touches) :
    state.Owns other := by
  cases acts with
  | get claimed | getInvalid claimed =>
      rcases List.mem_append.mp got with before | last
      · exact .inl before
      · cases List.mem_singleton.mp last
        exact .inr ⟨call, found, claimed⟩
  | pollReady | pollPending | pollFails => exact .inl ((get_mem_touch_ready other).mp got)
  | begin | sleep | giveUp | claim | refuse | post | resume | expire | cancel => exact .inl got

/-- A step of a worker leaves its caller where it was. -/
theorem LeftAlone.work (alone : state.LeftAlone) (owned : state.Ownership)
    (transit : state.Transit) {action : Action} (found : state.calls[id]? = some call)
    (acts : Acts state id call action next after) (same : after.ending = call.ending) :
    ({ next with calls := state.calls.set id after } : AwaitState).LeftAlone := by
  have idle (before : state.mayTake call = false) : next.mayTake after = false := by
    by_contra takes
    rw [mayTake_of_acts acts (by simpa using takes)] at before
    cases before
  have untaken (reply : Reply) (replied : state.reply = some reply)
      (isTimeout : Reply.isTimeout reply = true) := alone.timeout reply replied isTimeout
  have others (other : CallId) (apart : other ≠ id) (got : .get other ∈ next.touches) :
      .get other ∈ state.touches := by
    cases acts with
    | get | getInvalid => simpa [touch, apart] using got
    | pollReady | pollPending | pollFails => exact (get_mem_touch_ready other).mp got
    | begin | sleep | giveUp | claim | refuse | post | resume | expire | cancel => exact got
  refine alone.act rfl (by cases acts <;> rfl) (by cases acts <;> rfl) ?_ ?_ others ?_ ?_ ?_
  · intro used
    cases acts with
    | claim => rfl
    | begin | pollReady | pollPending | pollFails | sleep | giveUp | refuse | get | getInvalid
    | post | resume | expire | cancel => exact used
  · intro reply replied isTimeout
    obtain ⟨unused, none⟩ := untaken reply replied isTimeout
    cases acts with
    | claim consuming =>
        have takes := none id call found
        simp [mayTake, consuming, unused] at takes
    | begin | pollReady | pollPending | pollFails | sleep | giveUp | refuse | get | getInvalid
    | post | resume | expire | cancel => exact unused
  · intro reply replied isTimeout
    exact idle ((untaken reply replied isTimeout).2 id call found)
  · intro reply replied ending ended lost
    exact idle (alone.lost reply replied id call ending found (same ▸ ended) lost)
  · intro got ending ended
    exact alone.owner owned transit found (owns_of_got found acts got) (same ▸ ended)

/-- A call that ends with its outcome is not lost if it has taken the response. -/
theorem LeftAlone.resume (alone : state.LeftAlone) (owned : state.Ownership)
    (traced : state.Provenance) (found : state.calls[id]? = some call) {outcome : Reply}
    (done : call.result = .done outcome) :
    ({ state with
      calls := state.calls.set id { call with ending := some (call.endingOf outcome) } } :
        AwaitState).LeftAlone := by
  have finished : call.worker = .finished := by
    by_contra working
    exact (traced.unpublished id call found working).2 outcome done
  have idle : state.mayTake call = false := by simp [mayTake, finished]
  refine alone.act rfl rfl rfl (·) (fun reply replied isTimeout =>
    (alone.timeout reply replied isTimeout).1) (fun _ _ => (·)) (fun _ _ _ => idle)
    (fun _ _ _ _ _ => idle) ?_
  intro got ending ended
  cases ended
  apply call.isLost_endingOf
  rcases traced.sourced id call outcome found (.inr (.inr done)) with ⟨-, replied⟩ | ⟨notGot, -⟩
  · by_contra isTimeout
    have unused := (alone.timeout outcome replied (by simpa using isTimeout)).1
    exact owned.unused unused id (.inl got)
  · exact absurd got notGot

/-- Every timely step keeps the future alone. -/
theorem LeftAlone.step {label : AwaitLabel} (alone : state.LeftAlone) (owned : state.Ownership)
    (traced : state.Provenance) (transit : state.Transit) (timely : state.Timely label)
    (stepped : awaitFuture.step state label = some next) : next.LeftAlone := by
  cases steps_of_step stepped with
  | @act id _ call after next found acts =>
      have worked := alone.work owned transit found acts
      cases acts with
      | expire waits | cancel waits => exact alone.leave owned transit found waits timely _
      | resume waits done => exact alone.resume owned traced found done
      | begin | pollReady | pollPending | pollFails | sleep | giveUp | claim | refuse | get
      | getInvalid | post => exact worked rfl
  | start what timeout =>
      constructor
      · intro reply replied isTimeout
        rw [timely reply replied] at isTimeout
        cases isTimeout
      · intro reply replied id call ending found ended lost
        rcases of_getElem?_append found with before | ⟨-, rfl⟩
        · exact alone.lost reply replied id call ending before ended lost
        · cases ended
      · intro id call ending found got ended
        rcases of_getElem?_append found with before | ⟨-, rfl⟩
        · exact alone.taken id call ending before got ended
        · cases ended
  | publish queued =>
      constructor
      · intro reply replied isTimeout
        refine ⟨(alone.timeout reply replied isTimeout).1, ?_⟩
        intro id call found
        obtain ⟨before, known, rfl | ⟨-, -, rfl⟩⟩ := of_getElem?_publish found
        · exact (alone.timeout reply replied isTimeout).2 id call known
        · exact (alone.timeout reply replied isTimeout).2 id before known
      · intro reply replied id call ending found ended lost
        obtain ⟨before, known, rfl | ⟨-, -, rfl⟩⟩ := of_getElem?_publish found
        · exact alone.lost reply replied id call ending known ended lost
        · exact alone.lost reply replied id before ending known ended lost
      · intro id call ending found got ended
        obtain ⟨before, known, rfl | ⟨-, -, rfl⟩⟩ := of_getElem?_publish found
        · exact alone.taken id call ending known got ended
        · exact alone.taken id before ending known got ended
  | arrive waiting =>
      constructor
      · intro reply replied isTimeout
        cases replied
        refine ⟨transit.unconsumed waiting, ?_⟩
        intro id call found
        exact timely call (List.mem_of_getElem? found) (.inr isTimeout)
      · intro reply replied id call ending found ended lost
        apply timely call (List.mem_of_getElem? found) (.inl ?_)
        rw [ended]
        exact Option.some_ne_none ending
      · exact alone.taken
  | @tick elapsed positive =>
      have idle {call : Call} (before : state.mayTake call = false) :
          ({ state with now := state.now + elapsed } : AwaitState).mayTake call = false := by
        rw [Bool.eq_false_iff]
        intro takes
        have later : state.now ≤ state.now + elapsed := le_add_of_nonneg_right positive.le
        have earlier : state.mayTake call = true := by
          refine mayTake_of_later ?_ later takes
          exact (·)
        rw [before] at earlier
        cases earlier
      constructor
      · intro reply replied isTimeout
        obtain ⟨unused, none⟩ := alone.timeout reply replied isTimeout
        exact ⟨unused, fun id call found => idle (none id call found)⟩
      · intro reply replied id call ending found ended lost
        exact idle (alone.lost reply replied id call ending found ended lost)
      · exact alone.taken

theorem leftAlone_initial : awaitFuture.initial.LeftAlone where
  timeout reply replied := by cases replied
  lost reply replied := by cases replied
  taken id call ending found := by cases found

theorem leftAlone_of_reached (reached : awaitFuture.Reached Timely state) : state.LeftAlone :=
  reached.invariant_of LeftAlone
    (fun _ before => And.intro (ownership_of_reached before)
      (And.intro (provenance_of_reached before) (transit_of_reached before)))
    leftAlone_initial
    fun _ _ _ known alone timely stepped =>
      alone.step known.1 known.2.1 known.2.2 timely stepped

/-! ## Callers that left -/

/-- What a step does to a call there is: nothing, a step of its own, or `_publish`. -/
theorem call_of_step {label : AwaitLabel} (found : state.calls[id]? = some call)
    (stepped : awaitFuture.step state label = some next) :
    ∃ later, next.calls[id]? = some later ∧
      (later = call ∨ (∃ action after, Acts state id call action after later) ∨
        ∃ outcome, later = call.publish outcome) := by
  cases steps_of_step stepped with
  | arrive | tick => exact ⟨call, found, .inl rfl⟩
  | start what timeout =>
      have bound : id < state.calls.length := (List.getElem?_eq_some_iff.mp found).1
      exact ⟨call, (List.getElem?_append_left bound).trans found, .inl rfl⟩
  | @publish published outcome callbacks queued =>
      rw [List.getElem?_modify, found]
      by_cases same : published = id
      · exact ⟨_, congrArg some (if_pos same), .inr (.inr ⟨outcome, rfl⟩)⟩
      · exact ⟨_, congrArg some (if_neg same), .inl rfl⟩
  | @act acting action current after next foundActing acts =>
      rw [getElem?_set_of_found foundActing]
      by_cases same : id = acting
      · subst same
        rw [found] at foundActing
        cases foundActing
        exact ⟨after, if_pos rfl, .inr (.inl ⟨action, next, acts⟩)⟩
      · exact ⟨call, (if_neg same).trans found, .inl rfl⟩

/-- A caller that left stays away. -/
theorem ending_step {label : AwaitLabel} (found : state.calls[id]? = some call)
    (ended : call.ending = some ending)
    (stepped : awaitFuture.step state label = some next) :
    ∃ later, next.calls[id]? = some later ∧ later.ending = some ending := by
  obtain ⟨later, known, rfl | ⟨action, after, acts⟩ | ⟨outcome, rfl⟩⟩ :=
    call_of_step found stepped
  · exact ⟨later, known, ended⟩
  · refine ⟨later, known, ?_⟩
    cases acts with
    | resume waiting | expire waiting | cancel waiting => rw [waiting] at ended; cases ended
    | _ => exact ended
  · exact ⟨_, known, (call.ending_publish outcome).trans ended⟩

theorem ending_of_along {allowed : AwaitState → AwaitLabel → Prop} {later : AwaitState}
    (reached : awaitFuture.Along allowed state later) (found : state.calls[id]? = some call)
    (ended : call.ending = some ending) :
    ∃ current, later.calls[id]? = some current ∧ current.ending = some ending :=
  reached.invariant (fun later =>
      ∃ current, later.calls[id]? = some current ∧ current.ending = some ending)
    ⟨call, found, ended⟩
    fun _ _ _ known _ stepped => by
      obtain ⟨current, found, ended⟩ := known
      exact ending_step found ended stepped

/-! ## A later wait -/

theorem along_tick (state : AwaitState) {elapsed : Rat} (positive : 0 < elapsed) :
    awaitFuture.Along Timely state { state with now := state.now + elapsed } :=
  .take .refl (.tick elapsed) trivial (if_pos positive)

/-- Any moment to come, and later than now. -/
theorem along_until (state : AwaitState) (moment : Rat) :
    ∃ now, moment ≤ now ∧ state.now ≤ now ∧
      awaitFuture.Along Timely state { state with now } := by
  have positive : 0 < max 1 (moment - state.now) := lt_of_lt_of_le one_pos (le_max_left 1 _)
  refine ⟨_, ?_, ?_, along_tick state positive⟩
  · linarith [le_max_right 1 (moment - state.now)]
  · linarith

/-- The state after the worker of a call has run out of time. -/
def gaveUp (state : AwaitState) (id : CallId) (call : Call) (now : Rat) (touches : List Touch) :
    AwaitState :=
  { state with
    now, touches
    calls := state.calls.set id { call with worker := .publishing (.error call.timedOut) } }

theorem gaveUp_of_worker (state : AwaitState) (id : CallId) (call : Call) (worker : Worker)
    (before now : Rat) (polled touches : List Touch) :
    ({ state with
      now := before
      touches := polled
      calls := state.calls.set id { call with worker } } : AwaitState).gaveUp id
        { call with worker } now touches = state.gaveUp id call now touches := by
  rw [gaveUp, gaveUp, List.set_set]
  rfl

/-- A worker in front of its deadline check can be late for it. -/
theorem along_giveUp_of_checking (found : state.calls[id]? = some call)
    (checking : call.worker = .checking) {deadline : Rat}
    (limited : call.deadline = some deadline) :
    ∃ now touches, state.now ≤ now ∧
      awaitFuture.Along Timely state (state.gaveUp id call now touches) := by
  obtain ⟨now, late, forward, waited⟩ := along_until state deadline
  refine ⟨now, state.touches, forward, waited.take (.act id .check) trivial ?_⟩
  simp [awaitFuture, step, found, act, checking, limited, late, gaveUp]

/-- While no response is there, a worker about to poll can run out of time. -/
theorem along_giveUp_of_polling (waiting : state.reply = none) (valid : state.valid = true)
    (found : state.calls[id]? = some call) {notBefore : Rat}
    (polling : call.worker = .polling notBefore) {deadline : Rat}
    (limited : call.deadline = some deadline) :
    ∃ now touches, state.now ≤ now ∧
      awaitFuture.Along Timely state (state.gaveUp id call now touches) := by
  obtain ⟨now, due, forward, waited⟩ := along_until state notBefore
  let checking : Call := { call with worker := .checking }
  let polled : AwaitState :=
    { state with
      now
      touches := state.touches ++ [.ready id]
      calls := state.calls.set id checking }
  have took : awaitFuture.Along Timely state polled := by
    apply waited.take (.act id (.poll (.ok false))) trivial
    simp [awaitFuture, step, found, act, polling, due, ready, valid, waiting, touch, polled,
      checking, Worker.afterReady]
  have inFront : polled.calls[id]? = some checking :=
    (getElem?_set_of_found found checking id).trans (if_pos rfl)
  obtain ⟨later, touches, after, ran⟩ := along_giveUp_of_checking inFront rfl limited
  refine ⟨later, touches, forward.trans after, took.trans ?_⟩
  rw [← gaveUp_of_worker]
  exact ran

/-- While no response is there, a worker that may take it can run out of time. -/
theorem along_giveUp (transit : state.Transit) (owned : state.Ownership)
    (waiting : state.reply = none) (found : state.calls[id]? = some call)
    (takes : state.mayTake call = true) {deadline : Rat}
    (limited : call.deadline = some deadline) :
    ∃ now touches, state.now ≤ now ∧
      awaitFuture.Along Timely state (state.gaveUp id call now touches) := by
  have valid := owned.valid_of_unconsumed (transit.unconsumed waiting)
  cases worker : call.worker with
  | queued =>
      let polling : Call := { call with worker := .polling state.now }
      let begun : AwaitState := { state with calls := state.calls.set id polling }
      have took : awaitFuture.Along Timely state begun := by
        apply System.Along.take .refl (.act id .begin) trivial
        simp [awaitFuture, step, found, act, worker, begun, polling]
      have inFront : begun.calls[id]? = some polling :=
        (getElem?_set_of_found found polling id).trans (if_pos rfl)
      obtain ⟨now, touches, forward, ran⟩ :=
        along_giveUp_of_polling (show begun.reply = none from waiting) valid inFront rfl limited
      refine ⟨now, touches, forward, took.trans ?_⟩
      rw [← gaveUp_of_worker]
      exact ran
  | polling => exact along_giveUp_of_polling waiting valid found worker limited
  | checking => exact along_giveUp_of_checking found worker limited
  | consuming => exact absurd worker (transit.unready waiting id call found)
  | claimed => exact absurd (.inr ⟨call, found, worker⟩) (transit.not_owns owned waiting id)
  | publishing | finished => simp [mayTake, worker] at takes

/-- The workers of callers that left have no part in the response any more. -/
def Quiet (state : AwaitState) (count : Nat) : Prop :=
  ∀ (id : CallId) (call : Call), id < count → state.calls[id]? = some call →
    call.ending ≠ none → state.mayTake call = false

/-- While no response is there and every call whose caller left has a deadline, the workers
of these calls can all run out of time. -/
theorem along_quiet {allowed : AwaitState → AwaitLabel → Prop}
    (reached : awaitFuture.Reached allowed state) (waiting : state.reply = none)
    (limited : ∀ call ∈ state.calls, call.ending ≠ none → call.deadline ≠ none) (count : Nat) :
    ∃ later, awaitFuture.Along Timely state later ∧ later.reply = none ∧
      later.calls.length = state.calls.length ∧
      (∀ call ∈ later.calls, call.ending ≠ none → call.deadline ≠ none) ∧
      later.Quiet count := by
  induction count with
  | zero => exact ⟨state, .refl, waiting, rfl, limited, fun id call below => nomatch below⟩
  | succ count ih =>
      obtain ⟨middle, along, still, length, limits, quiet⟩ := ih
      by_cases takes : ∃ call, middle.calls[count]? = some call ∧ call.ending ≠ none ∧
          middle.mayTake call = true
      · obtain ⟨call, found, left, takes⟩ := takes
        obtain ⟨deadline, isDeadline⟩ :=
          Option.ne_none_iff_exists'.mp (limits call (List.mem_of_getElem? found) left)
        have throughout := reached.free.trans along.free
        obtain ⟨now, touches, forward, ran⟩ := along_giveUp (transit_of_reached throughout)
          (ownership_of_reached throughout) still found takes isDeadline
        refine ⟨_, along.trans ran, still, List.length_set.trans length, ?_, ?_⟩
        · intro other member leaves
          rcases List.mem_or_eq_of_mem_set member with before | rfl
          · exact limits other before leaves
          · exact limits call (List.mem_of_getElem? found) left
        · intro id other below known leaves
          rcases of_getElem?_set known with ⟨rfl, rfl⟩ | ⟨apart, before⟩
          · rfl
          · rw [Bool.eq_false_iff]
            intro stillTakes
            have earlier : middle.mayTake other = true := by
              refine mayTake_of_later ?_ forward stillTakes
              exact (·)
            have within : id < count := Nat.lt_of_le_of_ne (Nat.le_of_lt_succ below) apart
            rw [quiet id other within before leaves] at earlier
            cases earlier
      · refine ⟨middle, along, still, length, limits, ?_⟩
        intro id call below found left
        by_cases same : id = count
        · rw [Bool.eq_false_iff]
          intro stillTakes
          exact takes ⟨call, same ▸ found, left, stillTakes⟩
        · exact quiet id call (Nat.lt_of_le_of_ne (Nat.le_of_lt_succ below) same) found left

/-- The response can then arrive in time. -/
theorem along_arrival {allowed : AwaitState → AwaitLabel → Prop}
    (reached : awaitFuture.Reached allowed state) (waiting : state.reply = none)
    (limited : ∀ call ∈ state.calls, call.ending ≠ none → call.deadline ≠ none)
    (payload : Payload) :
    ∃ later, awaitFuture.Along Timely state later ∧ later.reply = some (.ok payload) ∧
      later.calls.length = state.calls.length ∧ later.consumed = false := by
  obtain ⟨later, along, still, length, -, quiet⟩ :=
    along_quiet reached waiting limited state.calls.length
  have unconsumed := (transit_of_reached (reached.free.trans along.free)).unconsumed still
  refine ⟨{ later with reply := some (.ok payload) }, along.take (.arrive (.ok payload)) ?_ ?_,
    rfl, length, unconsumed⟩
  · intro call member leftOrTimeout
    obtain ⟨id, bound, found⟩ := List.mem_iff_getElem.mp member
    refine quiet id call (length ▸ bound) (List.getElem?_eq_some_iff.mpr ⟨bound, found⟩) ?_
    exact leftOrTimeout.resolve_right (nofun)
  · simp [awaitFuture, step, still]

/-- An allowed step of the call that started last. -/
theorem along_act_last {calls : List Call} (action : Action)
    (last : state.calls = calls ++ [call])
    (allowed : state.Timely (.act calls.length action))
    (acted : state.act calls.length call action = some (next, after)) :
    awaitFuture.Along Timely state { next with calls := calls ++ [after] } := by
  apply System.Along.step .refl allowed
  simp [awaitFuture, step, last, acted]

/-- The loop can run every queued `_publish`. -/
theorem along_drain (state : AwaitState) :
    ∃ calls, calls.length = state.calls.length ∧
      awaitFuture.Along Timely state { state with callbacks := [], calls := calls } := by
  obtain ⟨now, reply, valid, consumed, touches, callbacks, calls⟩ := state
  induction callbacks generalizing calls with
  | nil => exact ⟨calls, rfl, .refl⟩
  | cons queued callbacks ih =>
      obtain ⟨id, outcome⟩ := queued
      obtain ⟨drained, length, along⟩ := ih (calls.modify id (·.publish outcome))
      refine ⟨drained, by simpa using length, ?_⟩
      exact (System.Along.refl.take .publish trivial rfl).trans along

theorem modify_last (calls : List Call) (call : Call) (outcome : Reply) :
    (calls ++ [call]).modify calls.length (·.publish outcome) =
      calls ++ [call.publish outcome] := by
  induction calls with
  | nil => rfl
  | cons first calls ih => simp [ih]

/-- With nothing queued and the future unused, a call that starts after the
response gets it. -/
theorem along_wait (now : Rat) (touches : List Touch) (calls : List Call) (payload : Payload) :
    ∃ later, awaitFuture.Along Timely
        ⟨now, some (.ok payload), true, false, touches, [], calls⟩ later ∧
      ∃ call, later.calls[calls.length]? = some call ∧
        call.ending = some (.returned payload) := by
  let fresh : Call := { what := "async_request", timeout := none, deadline := none }
  let origin : AwaitState := ⟨now, some (.ok payload), true, false, touches, [], calls⟩
  have started : awaitFuture.Along Timely origin { origin with calls := calls ++ [fresh] } :=
    .take .refl (.start "async_request" none) (by simp [Timely, origin, Reply.isTimeout]) rfl
  have begun := started.trans (along_act_last .begin rfl trivial rfl)
  have polled := begun.trans
    (along_act_last (.poll (.ok true)) rfl trivial (if_pos le_rfl))
  have claimed := polled.trans (along_act_last .claim rfl trivial rfl)
  have got := claimed.trans (along_act_last .get rfl trivial rfl)
  have queued := got.trans (along_act_last .post rfl trivial rfl)
  let answered : AwaitState :=
    { origin with
      valid := false
      consumed := true
      touches := touches ++ [.ready calls.length] ++ [.get calls.length]
      calls := calls ++ [{ fresh with worker := .finished, result := .done (.ok payload) }] }
  have posted : awaitFuture.Along Timely origin
      { answered with
        callbacks := [(calls.length, .ok payload)]
        calls := calls ++ [{ fresh with worker := .finished }] } := queued
  have published : awaitFuture.Along Timely origin answered :=
    .take posted .publish trivial (by simp only [awaitFuture, step, modify_last]; rfl)
  have resumed := published.trans
    (along_act_last .resume (show _ = calls ++ [_] from rfl) trivial rfl)
  exact ⟨_, resumed, _, List.getElem?_concat_length, rfl⟩

/-- An unused future whose response is there answers a later call. -/
theorem along_later_wait (owned : state.Ownership) (unused : state.consumed = false)
    {payload : Payload} (replied : state.reply = some (.ok payload)) :
    ∃ later, awaitFuture.Along Timely state later ∧
      ∃ call, later.calls[state.calls.length]? = some call ∧
        call.ending = some (.returned payload) := by
  have valid := owned.valid_of_unconsumed unused
  obtain ⟨calls, length, drained⟩ := along_drain state
  obtain ⟨later, waited, call, found, ended⟩ :=
    along_wait state.now state.touches calls payload
  refine ⟨later, drained.trans ?_, call, length ▸ found, ended⟩
  simpa only [unused, valid, replied] using waited

end AwaitState

open AwaitState in
/-- In a run whose events come in time, a call that timed out or was cancelled has not
called `get()` and never will.  Unless another call took the response, the future is
unconsumed, and a later call can obtain the response that is there, or that arrives once
the workers whose callers left are done. -/
theorem lostWait_leaves_future {state : AwaitState} {id : CallId} {call : Call}
    {ending : Ending} (reached : awaitFuture.Reached Timely state)
    (found : state.calls[id]? = some call) (ended : call.ending = some ending)
    (lost : ending.isLost = true) :
    (∀ later, awaitFuture.Along Timely state later → .get id ∉ later.touches) ∧
      ((∀ other, other ≠ id → ¬ state.Owns other) →
        state.consumed = false ∧ ∀ payload,
          (state.reply = some (.ok payload) ∨ state.reply = none ∧
            ∀ call ∈ state.calls, call.ending ≠ none → call.deadline ≠ none) →
            ∃ later, awaitFuture.Along Timely state later ∧
              ∃ call, later.calls[state.calls.length]? = some call ∧
                call.ending = some (.returned payload)) := by
  have disowned : ∀ later, awaitFuture.Along Timely state later → ¬ later.Owns id := by
    intro later along owns
    obtain ⟨current, foundLater, endedLater⟩ := ending_of_along along found ended
    have throughout := reached.trans along
    have kept := (leftAlone_of_reached throughout).owner (ownership_of_reached throughout)
      (transit_of_reached throughout) foundLater owns endedLater
    rw [kept] at lost
    cases lost
  constructor
  · intro later along got
    exact disowned later along (.inl got)
  · intro others
    have owned := ownership_of_reached reached
    have unused : state.consumed = false := by
      by_contra used
      obtain ⟨owner, owns⟩ := owned.used (by simpa using used)
      by_cases same : owner = id
      · exact disowned state .refl (same ▸ owns)
      · exact others owner same owns
    refine ⟨unused, ?_⟩
    intro payload response
    rcases response with replied | ⟨waiting, limited⟩
    · exact along_later_wait owned unused replied
    · obtain ⟨middle, arrived, replied, length, unconsumed⟩ :=
        along_arrival reached waiting limited payload
      obtain ⟨later, waited, call, foundLater, returned⟩ :=
        along_later_wait (ownership_of_reached (reached.trans arrived)) unconsumed replied
      exact ⟨later, arrived.trans waited, call, length ▸ foundLater, returned⟩

open AwaitState in
/-- A wait of one second that expires while the response is still out. -/
theorem lostWait_leaves_future_expired :
    ∃ state call, state.calls[0]? = some call ∧
      call.ending = some (.raised (.timeoutError "async_request timed out after 1.0s")) ∧
      (∀ later, awaitFuture.Along Timely state later → .get 0 ∉ later.touches) ∧
      ∃ later, awaitFuture.Along Timely state later ∧
        ∃ call, later.calls[1]? = some call ∧ call.ending = some (.returned ⟨0x4302, []⟩) := by
  let call : Call :=
    { what := "async_request", timeout := some ⟨1, "1.0"⟩, deadline := some 1
      worker := .polling (1 / 20), result := .cancelled
      ending := some (.raised (.timeoutError "async_request timed out after 1.0s")) }
  let expired : AwaitState := { now := 2, touches := [.ready 0], calls := [call] }
  have ran : awaitFuture.run Timely awaitFuture.initial
      [.start "async_request" (some ⟨1, "1.0"⟩), .act 0 .begin, .act 0 (.poll (.ok false)),
        .act 0 .check, .tick 2, .act 0 .expire] = some expired := by decide +kernel
  have leaves := lostWait_leaves_future (System.along_of_run ran)
    (show expired.calls[0]? = some call from rfl) rfl rfl
  refine ⟨expired, call, rfl, rfl, leaves.1, ?_⟩
  refine (leaves.2 ?_).2 ⟨0x4302, []⟩ (.inr ⟨rfl, by simp [expired, call]⟩)
  intro other apart owns
  cases other with
  | zero => exact apart rfl
  | succ other =>
      rcases owns with got | ⟨claimed, found, -⟩
      · simp [expired] at got
      · simp [expired] at found

open AwaitState in
/-- A worker that finds the response after its caller has timed out consumes it. -/
theorem lostWait_consumes_late_response :
    ¬ ∀ (state : AwaitState) (id : CallId) (call : Call) (ending : Ending),
      awaitFuture.Reached System.Free state → state.calls[id]? = some call →
        call.ending = some ending → ending.isLost = true → .get id ∉ state.touches := by
  intro never
  let call : Call :=
    { what := "async_request", timeout := some ⟨1, "1.0"⟩, deadline := some 1
      worker := .publishing (.ok ⟨0x4302, []⟩), result := .cancelled
      ending := some (.raised (.timeoutError "async_request timed out after 1.0s")) }
  have ran : awaitFuture.run System.Free awaitFuture.initial
      [.start "async_request" (some ⟨1, "1.0"⟩), .act 0 .begin, .act 0 (.poll (.ok false)),
        .act 0 .check, .tick 1, .act 0 .expire, .arrive (.ok ⟨0x4302, []⟩),
        .act 0 (.poll (.ok true)), .act 0 .claim, .act 0 .get] =
      some
        { now := 1, reply := some (.ok ⟨0x4302, []⟩), valid := false, consumed := true
          touches := [.ready 0, .ready 0, .get 0], calls := [call] } := by decide +kernel
  exact never _ 0 call _ (System.along_of_run ran) rfl rfl rfl (by decide)

end ObscuraProto
