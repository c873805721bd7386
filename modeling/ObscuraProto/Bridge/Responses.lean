import ObscuraProto.Bridge.Registry

/-!
# Whose response a caller gets

A response reaches the loop through a queue all requests share.  A caller that gets a
payload gets the one its own future was resolved with, and no other caller gets it.
-/

namespace ObscuraProto

open Transition Processes

namespace AwaitState

variable {state next : AwaitState} {id : CallId} {call later : Call} {outcome : Reply}

/-- The worker of the call comes by the outcome in this step. -/
def Obtains (state next : AwaitState) (id : CallId) (outcome : Reply) : Prop :=
  ∃ call action between after, Acts state id call action between after ∧
    call.worker ≠ .publishing outcome ∧ after.worker = .publishing outcome ∧
      next.touches = between.touches ∧ next.reply = between.reply

/-- An outcome on its way was so before, or the worker has just come by it. -/
theorem carried_of_step {label : AwaitLabel} (stepped : awaitFuture.step state label = some next)
    (bounded : ∀ id outcome, (id, outcome) ∈ state.callbacks → id < state.calls.length)
    (found : next.calls[id]? = some later) (carried : next.Carries id later outcome) :
    (∃ call, state.calls[id]? = some call ∧ state.Carries id call outcome) ∨
      state.Obtains next id outcome := by
  cases steps_of_step stepped with
  | arrive | tick => exact .inl ⟨later, found, carried⟩
  | start what timeout =>
      rcases of_getElem?_append found with before | ⟨rfl, rfl⟩
      · exact .inl ⟨later, before, carried⟩
      · rcases carried with publishing | queued | done
        · cases publishing
        · exact absurd (bounded _ _ queued) (lt_irrefl _)
        · cases done
  | @publish published posted callbacks queued =>
      obtain ⟨before, known, moved⟩ := of_getElem?_publish found
      refine .inl ⟨before, known, ?_⟩
      have waiting : ∀ entry ∈ callbacks, entry ∈ state.callbacks :=
        fun entry rest => queued ▸ List.mem_cons_of_mem _ rest
      rcases moved with rfl | ⟨rfl, -, rfl⟩
      · exact carried.imp_right (Or.imp_left (waiting _))
      · rcases carried with publishing | rest | done
        · exact .inl publishing
        · exact .inr (.inl (waiting _ rest))
        · cases done
          exact .inr (.inl (queued ▸ List.mem_cons_self))
  | @act acting action before after between known acts =>
      rcases of_getElem?_set found with ⟨rfl, rfl⟩ | ⟨apart, unchanged⟩
      · rcases carried with publishing | queued | done
        · by_cases held : before.worker = .publishing outcome
          · exact .inl ⟨before, known, .inl held⟩
          · exact .inr ⟨before, action, between, later, acts, held, publishing, rfl, rfl⟩
        · rcases acts.queued_cases queued with earlier | ⟨-, held⟩
          · exact .inl ⟨before, known, .inr (.inl earlier)⟩
          · exact .inl ⟨before, known, .inl held⟩
        · exact .inl ⟨before, known, .inr (.inr (acts.done_of_done done))⟩
      · refine .inl ⟨later, unchanged, ?_⟩
        rcases carried with publishing | queued | done
        · exact .inl publishing
        · rcases acts.queued_cases queued with earlier | ⟨same, -⟩
          · exact .inr (.inl earlier)
          · exact absurd same apart
        · exact .inr (.inr done)

/-- A payload on its way to a caller was taken from the future by that call. -/
def Genuine (state : AwaitState) : Prop :=
  ∀ (id : CallId) (call : Call) (payload : Payload), state.calls[id]? = some call →
    state.Carries id call (.ok payload) →
      .get id ∈ state.touches ∧ state.reply = some (.ok payload)

/-- No step takes back a use of the future or what it was resolved with. -/
theorem kept_of_step {label : AwaitLabel} (stepped : awaitFuture.step state label = some next) :
    (∀ touch ∈ state.touches, touch ∈ next.touches) ∧
      ∀ reply, state.reply = some reply → next.reply = some reply := by
  cases steps_of_step stepped with
  | start | publish | tick => exact ⟨fun _ => (·), fun _ => (·)⟩
  | arrive waiting =>
      refine ⟨fun _ => (·), fun reply replied => ?_⟩
      rw [waiting] at replied
      cases replied
  | act found acts =>
      cases acts with
      | pollReady | pollPending | pollFails | get | getInvalid =>
          exact ⟨fun touch member => List.mem_append_left _ member, fun _ => (·)⟩
      | begin | sleep | giveUp | claim | refuse | post | resume | expire | cancel =>
          exact ⟨fun _ => (·), fun _ => (·)⟩

/-- The only payload a worker comes by is what `get()` returns. -/
theorem Obtains.get {payload : Payload} (obtains : state.Obtains next id (.ok payload)) :
    .get id ∈ next.touches ∧ next.reply = some (.ok payload) := by
  obtain ⟨call, action, between, after, acts, unheld, held, touches, reply⟩ := obtains
  rw [touches, reply]
  cases acts with
  | get claimed valid arrived =>
      cases held
      exact ⟨by simp [touch], arrived⟩
  | resume | expire | cancel => exact absurd held unheld
  | begin | pollReady | pollPending | pollFails | sleep | giveUp | claim | refuse | getInvalid
  | post => cases held

theorem Genuine.step {label : AwaitLabel} (genuine : state.Genuine) (traced : state.Provenance)
    (stepped : awaitFuture.step state label = some next) : next.Genuine := by
  intro id later payload found carried
  rcases carried_of_step stepped traced.known found carried with ⟨call, known, before⟩ | obtains
  · obtain ⟨got, replied⟩ := genuine id call payload known before
    exact ⟨(kept_of_step stepped).1 _ got, (kept_of_step stepped).2 _ replied⟩
  · exact obtains.get

theorem genuine_of_reached {allowed : AwaitState → AwaitLabel → Prop}
    (reached : awaitFuture.Reached allowed state) : state.Genuine :=
  reached.invariant_of Genuine (fun _ => provenance_of_reached)
    (fun id call payload found => by cases found)
    fun _ _ _ traced genuine _ stepped => genuine.step traced stepped

/-- A payload that a caller has was taken from the future on its behalf. -/
theorem get_of_returned {allowed : AwaitState → AwaitLabel → Prop}
    (reached : awaitFuture.Reached allowed state) {payload : Payload}
    (found : state.calls[id]? = some call) (returned : call.ending = some (.returned payload)) :
    .get id ∈ state.touches ∧ state.reply = some (.ok payload) := by
  rcases (provenance_of_reached reached).ended id call _ found returned with
    ⟨outcome, done, same⟩ | same | same
  · cases outcome with
    | ok taken =>
        cases same
        exact genuine_of_reached reached id call payload found (.inr (.inr done))
    | error e =>
        simp only [Call.endingOf] at same
        split at same <;> cases same
  · cases same
  · cases same

end AwaitState

/-- A caller that gets a payload gets the response to its own request, and is the only
one that gets it. -/
theorem requestProcess_responses {state : ProcessState}
    (reached : requestProcess.Reached System.Free state) {object : FutureObject}
    (member : object ∈ state.objects) {id : CallId} {call : Call} {payload : Payload}
    (found : object.requests.await.calls[id]? = some call)
    (returned : call.ending = some (.returned payload)) :
    object.requests.await.reply = some (.ok payload) ∧
      ∀ (other : CallId) (rival : Call) (response : Payload), other ≠ id →
        object.requests.await.calls[other]? = some rival →
          rival.ending ≠ some (.returned response) := by
  have running := ProcessState.await_of_mem reached member
  obtain ⟨got, replied⟩ := AwaitState.get_of_returned running found returned
  refine ⟨replied, fun other rival response apart known again => apart ?_⟩
  obtain ⟨gotToo, -⟩ := AwaitState.get_of_returned running known again
  exact (AwaitState.ownership_of_reached running).unique other id (.inl gotToo) (.inl got)

/-- Two requests whose responses arrive in the other order; the second caller goes on
first. -/
theorem requestProcess_responses_crossing :
    ∃ (state : ProcessState) (object : FutureObject) (call : Call),
      state.objects[0]? = some object ∧ object.requests.await.calls[0]? = some call ∧
        call.ending = some (.returned ⟨0x4302, []⟩) ∧
        object.requests.await.reply = some (.ok ⟨0x4302, []⟩) ∧
        ∀ (other : CallId) (rival : Call) (response : Payload), other ≠ 0 →
          object.requests.await.calls[other]? = some rival →
            rival.ending ≠ some (.returned response) := by
  have ran : ((requestProcess.run System.Free requestProcess.initial
      [.create 7, .create 8, .call 0 "async_request" none, .submit (0, 0) false,
        .call 1 "async_request" (some ⟨30, "30.0"⟩), .submit (1, 0) false, .act (0, 0) .begin,
        .act (1, 0) .begin, .arrive 1 (.ok ⟨0x4303, []⟩), .act (1, 0) (.poll (.ok true)),
        .arrive 0 (.ok ⟨0x4302, []⟩), .act (0, 0) (.poll (.ok true)), .act (0, 0) .claim,
        .act (1, 0) .claim, .act (1, 0) .get, .act (0, 0) .get, .act (1, 0) .post,
        .act (0, 0) .post, .publish, .act (1, 0) .resume, .publish, .act (0, 0) .resume]).map
          fun state => state.objects[0]?.bind fun object =>
            object.requests.await.calls[0]?.bind (·.ending)) =
      some (some (.returned ⟨0x4302, []⟩)) := by decide +kernel
  obtain ⟨state, taken, observed⟩ := Option.map_eq_some_iff.mp ran
  obtain ⟨object, foundObject, observed⟩ := Option.bind_eq_some_iff.mp observed
  obtain ⟨call, found, returned⟩ := Option.bind_eq_some_iff.mp observed
  exact ⟨state, object, call, foundObject, found, returned,
    requestProcess_responses (System.along_of_run taken) (List.mem_of_getElem? foundObject) found
      returned⟩

end ObscuraProto
