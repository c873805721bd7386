import ObscuraProto.Bridge.Responses

/-!
# Events that do not come in time

An event that does not meet the condition under which lost waits leave the native future
alone can be followed by steps that all do, up to a lost call whose worker called `get()`.
-/

namespace ObscuraProto

open Transition Processes

namespace AwaitState

variable {state next : AwaitState} {id : CallId} {call : Call} {reply : Reply}

/-- A call is lost whose worker has called `get()`. -/
def LostGet (state : AwaitState) : Prop :=
  ∃ id call ending, state.calls[id]? = some call ∧ call.ending = some ending ∧
    ending.isLost = true ∧ .get id ∈ state.touches

/-! ## A worker that takes the response -/

/-- The state after the worker of a call has taken the response. -/
def took (state : AwaitState) (id : CallId) (call : Call) (reply : Reply) (now : Rat)
    (touches : List Touch) : AwaitState :=
  { state with
    now
    valid := false
    consumed := true
    touches := touches ++ [.get id]
    calls := state.calls.set id { call with worker := .publishing reply } }

theorem took_of_worker (state : AwaitState) (id : CallId) (call : Call) (reply : Reply)
    (worker : Worker) (consumed : Bool) (before now : Rat) (polled touches : List Touch) :
    ({ state with
      now := before
      consumed
      touches := polled
      calls := state.calls.set id { call with worker } } : AwaitState).took id
        { call with worker } reply now touches = state.took id call reply now touches := by
  rw [took, took, List.set_set]

theorem along_took_of_claimed (replied : state.reply = some reply) (valid : state.valid = true)
    (found : state.calls[id]? = some call) (claimed : call.worker = .claimed)
    (used : state.consumed = true) :
    ∃ now touches, awaitFuture.Along Timely state (state.took id call reply now touches) := by
  refine ⟨state.now, state.touches, System.Along.take .refl (.act id .get) trivial ?_⟩
  simp [awaitFuture, step, found, act, claimed, valid, replied, touch, took, used]

theorem along_took_of_consuming (replied : state.reply = some reply)
    (unused : state.consumed = false) (valid : state.valid = true)
    (found : state.calls[id]? = some call) (consuming : call.worker = .consuming) :
    ∃ now touches, awaitFuture.Along Timely state (state.took id call reply now touches) := by
  let claimed : Call := { call with worker := .claimed }
  let passed : AwaitState :=
    { state with consumed := true, calls := state.calls.set id claimed }
  have claims : awaitFuture.Along Timely state passed := by
    apply System.Along.take .refl (.act id .claim) trivial
    simp [awaitFuture, step, found, act, consuming, unused, passed, claimed]
  have inFront : passed.calls[id]? = some claimed :=
    (getElem?_set_of_found found claimed id).trans (if_pos rfl)
  obtain ⟨now, touches, ran⟩ :=
    along_took_of_claimed (show passed.reply = some reply from replied) valid inFront rfl rfl
  refine ⟨now, touches, claims.trans ?_⟩
  rw [← took_of_worker]
  exact ran

theorem along_took_of_polling (replied : state.reply = some reply)
    (unused : state.consumed = false) (valid : state.valid = true)
    (found : state.calls[id]? = some call) {notBefore : Rat}
    (polling : call.worker = .polling notBefore) :
    ∃ now touches, awaitFuture.Along Timely state (state.took id call reply now touches) := by
  obtain ⟨now, due, -, waited⟩ := along_until state notBefore
  let consuming : Call := { call with worker := .consuming }
  let polled : AwaitState :=
    { state with
      now
      touches := state.touches ++ [.ready id]
      calls := state.calls.set id consuming }
  have polls : awaitFuture.Along Timely state polled := by
    apply waited.take (.act id (.poll (.ok true))) trivial
    simp [awaitFuture, step, found, act, polling, due, ready, valid, replied, touch, polled,
      consuming, Worker.afterReady]
  have inFront : polled.calls[id]? = some consuming :=
    (getElem?_set_of_found found consuming id).trans (if_pos rfl)
  obtain ⟨later, touches, ran⟩ := along_took_of_consuming
    (show polled.reply = some reply from replied) unused valid inFront rfl
  refine ⟨later, touches, polls.trans ?_⟩
  rw [← took_of_worker]
  exact ran

/-- A worker that may take the response can take it. -/
theorem along_took (owned : state.Ownership) (replied : state.reply = some reply)
    (found : state.calls[id]? = some call) (takes : state.mayTake call = true) :
    ∃ now touches, awaitFuture.Along Timely state (state.took id call reply now touches) := by
  have goesOn (notBefore : Rat) (unused : state.consumed = false)
      (ran : awaitFuture.Along Timely state { state with
        calls := state.calls.set id { call with worker := .polling notBefore } }) :
      ∃ now touches, awaitFuture.Along Timely state (state.took id call reply now touches) := by
    let polling : Call := { call with worker := .polling notBefore }
    let middle : AwaitState := { state with calls := state.calls.set id polling }
    have inFront : middle.calls[id]? = some polling :=
      (getElem?_set_of_found found polling id).trans (if_pos rfl)
    obtain ⟨now, touches, took⟩ := along_took_of_polling
      (show middle.reply = some reply from replied) unused (owned.valid_of_unconsumed unused)
      inFront rfl
    refine ⟨now, touches, ran.trans ?_⟩
    rw [← took_of_worker]
    exact took
  cases worker : call.worker with
  | queued =>
      have unused : state.consumed = false := by simpa [mayTake, worker] using takes
      refine goesOn state.now unused (System.Along.take .refl (.act id .begin) trivial ?_)
      simp [awaitFuture, step, found, act, worker]
  | checking =>
      simp only [mayTake, worker, Bool.and_eq_true, Bool.not_eq_eq_eq_not, Bool.not_true,
        Option.all_eq_true, decide_eq_true_eq] at takes
      cases limited : call.deadline with
      | none =>
          refine goesOn (state.now + callbackPollInterval) takes.1
            (System.Along.take .refl (.act id .check) trivial ?_)
          simp [awaitFuture, step, found, act, worker, limited]
      | some deadline =>
          have early : ¬ deadline - state.now ≤ 0 := by
            linarith [takes.2 deadline limited]
          refine goesOn (state.now + min callbackPollInterval (deadline - state.now)) takes.1
            (System.Along.take .refl (.act id .check) trivial ?_)
          simp only [awaitFuture, step, found, act, worker, limited, if_neg early]
  | polling =>
      have unused : state.consumed = false := by simpa [mayTake, worker] using takes
      exact along_took_of_polling replied unused (owned.valid_of_unconsumed unused) found worker
  | consuming =>
      have unused : state.consumed = false := by simpa [mayTake, worker] using takes
      exact along_took_of_consuming replied unused (owned.valid_of_unconsumed unused) found worker
  | claimed =>
      have claims : state.Claimed id := ⟨call, found, worker⟩
      have used : state.consumed = true := by
        by_contra unused
        exact owned.unused (by simpa using unused) id (.inr claims)
      exact along_took_of_claimed replied (owned.claimed_valid id claims) found worker used
  | publishing | finished => simp [mayTake, worker] at takes

/-! ## A caller that gets the C++ layer's timeout -/

/-- The loop can run the queued `_publish` in front of one of a call. -/
theorem along_publish_others (front rest : List (CallId × Reply)) (apart : ∀ entry ∈ front,
    entry.1 ≠ id) (queued : state.callbacks = front ++ rest) :
    ∃ calls, calls[id]? = state.calls[id]? ∧
      awaitFuture.Along Timely state { state with callbacks := rest, calls } := by
  induction front generalizing state with
  | nil =>
      refine ⟨state.calls, rfl, ?_⟩
      rw [← show state.callbacks = rest from queued]
      exact .refl
  | cons first front ih =>
      obtain ⟨other, outcome⟩ := first
      let published : AwaitState :=
        { state with
          callbacks := front ++ rest
          calls := state.calls.modify other (·.publish outcome) }
      have publishes : awaitFuture.Along Timely state published := by
        apply System.Along.take .refl .publish trivial
        simp [awaitFuture, step, queued, published]
      have others : ∀ entry ∈ front, entry.1 ≠ id := fun entry member =>
        apart entry (List.mem_cons_of_mem _ member)
      obtain ⟨calls, same, ran⟩ :=
        ih others (show published.callbacks = front ++ rest from rfl)
      refine ⟨calls, same.trans ?_, publishes.trans ran⟩
      exact List.getElem?_modify_ne _ _ (apart _ List.mem_cons_self)

/-- The C++ layer's timeout, once taken, ends the call as a timeout. -/
theorem along_lost {e : PyExc} (found : state.calls[id]? = some call)
    (publishing : call.worker = .publishing (.error e)) (waits : call.ending = none)
    (pending : call.result = .pending) (unqueued : ∀ outcome, (id, outcome) ∉ state.callbacks)
    (isTimeout : e.isTimeout = true) (got : .get id ∈ state.touches) :
    ∃ later, awaitFuture.Along Timely state later ∧ later.LostGet := by
  let finished : Call := { call with worker := .finished }
  let posted : AwaitState :=
    { state with
      callbacks := state.callbacks ++ [(id, .error e)]
      calls := state.calls.set id finished }
  have posts : awaitFuture.Along Timely state posted := by
    apply System.Along.take .refl (.act id .post) trivial
    simp [awaitFuture, step, found, act, publishing, posted, finished]
  have apart : ∀ entry ∈ state.callbacks, entry.1 ≠ id := by
    rintro ⟨other, outcome⟩ member rfl
    exact unqueued outcome member
  obtain ⟨calls, same, others⟩ := along_publish_others state.callbacks [(id, .error e)] apart
    (show posted.callbacks = _ from rfl)
  let answered : Call := { finished with result := .done (.error e) }
  have publishes := others.take .publish trivial
    (show _ = some { posted with callbacks := [], calls := calls.modify id (·.publish (.error e)) }
      from rfl)
  have known : (calls.modify id (·.publish (.error e)))[id]? = some answered := by
    have inPlace : calls[id]? = some finished :=
      same.trans ((getElem?_set_of_found found finished id).trans (if_pos rfl))
    have published : finished.publish (.error e) = answered := by
      rw [Call.publish_eq, if_pos pending]
    simp [inPlace, published]
  let ended : Call := { answered with ending := some (answered.endingOf (.error e)) }
  have resumes := publishes.take (.act id .resume) trivial
    (show _ = some { posted with
      callbacks := []
      calls := (calls.modify id (·.publish (.error e))).set id ended } by
        simp [awaitFuture, step, known, act, answered, finished, waits, ended])
  refine ⟨_, posts.trans resumes, id, ended, _,
    (getElem?_set_of_found known ended id).trans (if_pos rfl), rfl, ?_, got⟩
  simp only [Call.endingOf]
  split
  · rfl
  · exact isTimeout

/-! ## What an event that comes at the wrong time leads to -/

/-- A caller that left before its worker was done is lost. -/
theorem Provenance.lost (traced : state.Provenance) (found : state.calls[id]? = some call)
    (working : call.worker ≠ .finished) {ending : Ending} (ended : call.ending = some ending) :
    ending.isLost = true := by
  rcases traced.ended id call ending found ended with ⟨outcome, done, -⟩ | rfl | rfl
  · exact absurd done ((traced.unpublished id call found working).2 outcome)
  · rfl
  · rfl

/-- A worker whose caller left, or that waits for the C++ layer's timeout, can take the
response for a lost call. -/
theorem along_lostGet {allowed : AwaitState → AwaitLabel → Prop}
    (reached : awaitFuture.Reached allowed state) (replied : state.reply = some reply)
    (found : state.calls[id]? = some call) (takes : state.mayTake call = true)
    (lost : call.ending ≠ none ∨ Reply.isTimeout reply = true) :
    ∃ later, awaitFuture.Along Timely state later ∧ later.LostGet := by
  have traced := provenance_of_reached reached
  have working : call.worker ≠ .finished := by
    intro finished
    simp [mayTake, finished] at takes
  obtain ⟨now, touches, took⟩ := along_took (ownership_of_reached reached) replied found takes
  let publishing : Call := { call with worker := .publishing reply }
  have inPlace : (state.calls.set id publishing)[id]? = some publishing :=
    (getElem?_set_of_found found publishing id).trans (if_pos rfl)
  have got : .get id ∈ touches ++ [.get id] := by simp
  cases ended : call.ending with
  | some ending =>
      exact ⟨_, took, id, publishing, ending, inPlace, ended, traced.lost found working ended, got⟩
  | none =>
      obtain ⟨unqueued, undone⟩ := traced.unpublished id call found working
      have pending : call.result = .pending := by
        cases result : call.result with
        | pending => rfl
        | cancelled =>
            exact absurd result ((transit_of_reached reached).uncancelled id call found ended)
        | done outcome => exact absurd result (undone outcome)
      have isTimeout := lost.resolve_left (not_not.mpr ended)
      cases reply with
      | ok payload => cases isTimeout
      | error e =>
          have known : (state.took id call (.error e) now touches).calls[id]? = some publishing :=
            inPlace
          obtain ⟨later, ran, lostGet⟩ :=
            along_lost known rfl ended pending unqueued isTimeout got
          exact ⟨later, took.trans ran, lostGet⟩

/-- A caller leaves although its worker may take the response or has taken it. -/
theorem along_lostGet_of_leave {allowed : AwaitState → AwaitLabel → Prop} {ending : Ending}
    (reached : awaitFuture.Reached allowed state) (found : state.calls[id]? = some call)
    (left : awaitFuture.Reached System.Free
      { state with calls := state.calls.set id (call.abandon ending) })
    (lost : ending.isLost = true) (replied : state.reply = some reply)
    (breaks : ¬ (state.mayTake call = false ∧ ¬ state.Carries id call reply))
    (errors : ∀ (id : CallId) (call : Call) (e : PyExc), state.calls[id]? = some call →
      state.Carries id call (.error e) → state.reply = some (.error e) →
        .get id ∈ state.touches) :
    ∃ later, awaitFuture.Along Timely
      { state with calls := state.calls.set id (call.abandon ending) } later ∧ later.LostGet := by
  have inPlace : (state.calls.set id (call.abandon ending))[id]? = some (call.abandon ending) :=
    (getElem?_set_of_found found _ id).trans (if_pos rfl)
  by_cases takes : state.mayTake call = true
  · exact along_lostGet left replied inPlace takes (.inl (Option.some_ne_none ending))
  · have carries : state.Carries id call reply := by
      by_contra apart
      exact breaks ⟨Bool.eq_false_iff.mpr takes, apart⟩
    have got : .get id ∈ state.touches := by
      cases reply with
      | ok payload => exact (genuine_of_reached reached id call payload found carries).1
      | error e => exact errors id call e found carries replied
    exact ⟨_, .refl, id, _, ending, inPlace, rfl, lost, got⟩

/-- The condition is not too strong: an event that does not meet it, in a run that met it
so far, can be followed by steps that meet it up to a lost call whose worker called
`get()`.  An error a call came by otherwise must not be mistaken for the response. -/
theorem exists_lostGet_of_not_timely {label : AwaitLabel}
    (reached : awaitFuture.Reached Timely state) (untimely : ¬ state.Timely label)
    (stepped : awaitFuture.step state label = some next)
    (errors : ∀ (id : CallId) (call : Call) (e : PyExc), state.calls[id]? = some call →
      state.Carries id call (.error e) → state.reply = some (.error e) →
        .get id ∈ state.touches) :
    ∃ later, awaitFuture.Along Timely next later ∧ later.LostGet := by
  have after := reached.free.take label trivial stepped
  cases steps_of_step stepped with
  | publish | tick => exact absurd trivial untimely
  | @arrive reply waiting =>
      simp only [Timely, not_forall, Bool.not_eq_false] at untimely
      obtain ⟨call, member, lost, takes⟩ := untimely
      obtain ⟨id, found⟩ := List.mem_iff_getElem?.mp member
      exact along_lostGet after rfl found takes lost
  | start what timeout =>
      simp only [Timely, not_forall, Bool.not_eq_false] at untimely
      obtain ⟨reply, replied, isTimeout⟩ := untimely
      have unused := ((leftAlone_of_reached reached).timeout reply replied isTimeout).1
      refine along_lostGet after replied List.getElem?_concat_length ?_ (.inr isTimeout)
      simp [mayTake, newCall, unused]
  | @act id action call current middle found acts =>
      cases acts with
      | expire waits | cancel waits =>
          simp only [Timely, not_forall] at untimely
          obtain ⟨reply, replied, -, other, known, breaks⟩ := untimely
          cases (Option.mem_def.mp known).symm.trans found
          exact along_lostGet_of_leave reached found after rfl replied breaks errors
      | _ => exact absurd trivial untimely

end AwaitState

end ObscuraProto
