import ObscuraProto.Dispatcher.Invocation
import ObscuraProto.Library.Transition

/-!
# The verdict of an identity check

One call of the callback made by `wrap_identity`, step by step.  While the calling
thread polls, the event loop completes or cancels the coroutine, and any thread may
set the error handler.
-/

namespace ObscuraProto

open Transition

/-! ## The future of a scheduled coroutine -/

/-- A `concurrent.futures.Future` made by `run_coroutine_threadsafe`. -/
inductive FutureState where
  | pending
  | finished (outcome : Except PyExc PyValue)
  | cancelled
  deriving DecidableEq

structure ConcurrentFuture where
  state : FutureState := .pending
  /-- `_reap_future_result` is attached. -/
  reaped : Bool := false
  deriving DecidableEq

def cancelledError : PyExc := .user "CancelledError" ""

namespace ConcurrentFuture

def done (future : ConcurrentFuture) : Bool :=
  future.state != .pending

/-- The loop sets the outcome; a future that is done keeps what it has. -/
def settle (after : FutureState) (future : ConcurrentFuture) : ConcurrentFuture :=
  if future.done then future else { future with state := after }

def cancel (future : ConcurrentFuture) : ConcurrentFuture :=
  future.settle .cancelled

/-- `_abandon_timed_out_future`. -/
def abandon (future : ConcurrentFuture) : ConcurrentFuture :=
  { future.cancel with reaped := true }

/-- `future.result()` once the future is done. -/
def result (future : ConcurrentFuture) : Option (Except PyExc PyValue) :=
  match future.state with
  | .pending => none
  | .finished outcome => some outcome
  | .cancelled => some (.error cancelledError)

theorem settle_of_done {future : ConcurrentFuture} (after : FutureState)
    (done : future.done = true) : future.settle after = future := by
  rw [settle, if_pos done]

theorem done_of_finished {future : ConcurrentFuture} {outcome : Except PyExc PyValue}
    (finished : future.state = .finished outcome) : future.done = true := by
  rw [done, finished]
  rfl

theorem finished_of_result {future : ConcurrentFuture} {value : PyValue}
    (result : future.result = some (.ok value)) : future.state = .finished (.ok value) := by
  rw [ConcurrentFuture.result] at result
  split at result
  · cases result
  · next outcome finished =>
      cases result
      exact finished
  · cases result

end ConcurrentFuture

/-! ## One identity check -/

/-- What an identity handler returns. -/
inductive IdentityAnswer where
  | value (value : PyValue)
  | coroutine
  deriving DecidableEq

/-- Where the thread is in `identity_wrapper`. -/
inductive IdentityPhase where
  /-- In the user's handler. -/
  | handler
  /-- Before `run_coroutine_threadsafe`. -/
  | scheduling
  /-- Before `future.done()`. -/
  | polling
  /-- The future was not done: before the clock is read. -/
  | checking
  | sleeping
  /-- The deadline has passed: before `_abandon_timed_out_future`. -/
  | abandoning
  /-- The future was done: before `future.result()`. -/
  | collecting
  /-- Before `bool(value)`. -/
  | coercing (value : PyValue)
  /-- An exception is about to be caught. -/
  | failed (e : PyExc)
  /-- In the error handler. -/
  | forwarding
  | returned (verdict : Bool)
  | raised (e : PyExc)
  deriving DecidableEq

structure IdentityState where
  loop : Option LoopId
  resultTimeout : Seconds
  errorHandler : Option HandlerId
  phase : IdentityPhase := .handler
  /-- What the handler ended with. -/
  answer : Option (Except PyExc IdentityAnswer) := none
  /-- The future of the coroutine, once the loop has taken it. -/
  future : Option ConcurrentFuture := none
  /-- A poll of the wait has seen the future done. -/
  observed : Bool := false
  deriving DecidableEq

inductive IdentityLabel where
  /-- The handler returns or raises. -/
  | handlerEnds (answer : Except PyExc IdentityAnswer)
  /-- The loop takes the coroutine, or refuses it because it is closed. -/
  | schedule (refused : Option PyExc)
  | poll
  | readClock (expired : Bool)
  | wake
  | abandon
  | collect
  /-- `bool()` of the value; `__bool__` of a user class may raise. -/
  | coerce (failure : Option PyExc)
  | catchFailure
  | reported (outcome : Except PyExc Unit)
  /-- The coroutine ends on the loop. -/
  | complete (outcome : Except PyExc PyValue)
  /-- The coroutine's task is cancelled on the loop. -/
  | cancelTask
  | setErrorHandler (handler : Option HandlerId)

namespace IdentityState

/-- The phase after the handler. -/
def answered (state : IdentityState) : Except PyExc IdentityAnswer → IdentityPhase
  | .error e => .failed e
  | .ok (.value value) => .coercing value
  | .ok .coroutine =>
      match state.loop with
      | some _ => .scheduling
      | none => .failed noLoopAttached

def step (state : IdentityState) (label : IdentityLabel) : Option IdentityState :=
  match label, state.phase, state.future with
  | .handlerEnds answer, .handler, _ =>
      some { state with phase := state.answered answer, answer := some answer }
  | .schedule (some e), .scheduling, _ => some { state with phase := .failed e }
  | .schedule none, .scheduling, _ => some { state with phase := .polling, future := some {} }
  | .poll, .polling, some future =>
      if future.done then some { state with phase := .collecting, observed := true }
      else some { state with phase := .checking }
  | .readClock expired, .checking, _ =>
      some { state with phase := if expired then .abandoning else .sleeping }
  | .wake, .sleeping, _ => some { state with phase := .polling }
  | .abandon, .abandoning, some future =>
      some { state with
        future := some future.abandon
        phase := .failed (callbackTimeout state.resultTimeout) }
  | .collect, .collecting, some future =>
      match future.result with
      | some (.ok value) => some { state with phase := .coercing value }
      | some (.error e) => some { state with phase := .failed e }
      | none => none
  | .coerce (some e), .coercing _, _ => some { state with phase := .failed e }
  | .coerce none, .coercing value, _ => some { state with phase := .returned value.truth }
  | .catchFailure, .failed e, _ =>
      match state.errorHandler with
      | some _ => some { state with phase := .forwarding }
      | none => some { state with phase := .raised e }
  | .reported (.ok _), .forwarding, _ => some { state with phase := .returned false }
  | .reported (.error e), .forwarding, _ => some { state with phase := .raised e }
  -- What the loop and other threads do meanwhile.
  | .complete outcome, _, some future =>
      some { state with future := some (future.settle (.finished outcome)) }
  | .cancelTask, _, some future => some { state with future := some future.cancel }
  | .setErrorHandler handler, _, _ => some { state with errorHandler := handler }
  | _, _, _ => none

end IdentityState

/-- A call of what `wrap_identity` returns, made after the dispatcher's error handler
became `errorHandler`. -/
def identityCheck (dispatcher : Dispatcher) (running : Option LoopId)
    (errorHandler : Option HandlerId) : System IdentityState IdentityLabel where
  initial :=
    { loop := (dispatcher.detectLoop running).loop
      resultTimeout := dispatcher.resultTimeout
      errorHandler }
  step := IdentityState.step

/-! ## Where a verdict comes from -/

namespace IdentityState

/-- The value was returned by the handler itself, or is the outcome of its coroutine,
which a poll has seen done. -/
def Answered (state : IdentityState) (value : PyValue) : Prop :=
  state.answer = some (.ok (.value value)) ∨
    state.answer = some (.ok .coroutine) ∧ state.observed = true ∧
      ∃ future, state.future = some future ∧ future.state = .finished (.ok value)

/-- What is known of the answer in each phase. -/
def Sourced (state : IdentityState) : Prop :=
  match state.phase with
  | .scheduling | .polling | .checking | .sleeping | .abandoning =>
      state.answer = some (.ok .coroutine)
  | .collecting =>
      state.answer = some (.ok .coroutine) ∧ state.observed = true ∧
        ∃ future, state.future = some future ∧ future.done = true
  | .coercing value => state.Answered value
  | .returned true => ∃ value, state.Answered value ∧ value.truth = true
  | .handler | .failed _ | .forwarding | .returned false | .raised _ => True

theorem Answered.of_answer {state next : IdentityState} {value : PyValue}
    (answered : state.Answered value) (answer : next.answer = state.answer)
    (observed : next.observed = state.observed)
    (future : ∀ future outcome, state.future = some future → future.state = .finished outcome →
      next.future = some future) : next.Answered value := by
  rcases answered with byValue | ⟨coroutine, seen, known, here, finished⟩
  · exact .inl (answer.trans byValue)
  · exact .inr ⟨answer.trans coroutine, observed.trans seen, known,
      future known _ here finished, finished⟩

/-- A future that is done stays as it is, so what the loop does to it changes no
verdict. -/
theorem Sourced.settle {state : IdentityState} {future : ConcurrentFuture}
    (sourced : state.Sourced) (here : state.future = some future) (after : FutureState) :
    ({ state with future := some (future.settle after) } : IdentityState).Sourced := by
  have kept : ∀ known : ConcurrentFuture, state.future = some known → known.done = true →
      some (future.settle after) = some known := by
    intro known same done
    rw [here, Option.some.injEq] at same
    rw [same, known.settle_of_done after done]
  have answered {value : PyValue} (before : state.Answered value) :
      ({ state with future := some (future.settle after) } : IdentityState).Answered value :=
    before.of_answer rfl rfl fun known outcome same finished =>
      kept known same (ConcurrentFuture.done_of_finished finished)
  rw [Sourced] at sourced ⊢
  cases phase : state.phase with
  | collecting =>
      rw [phase] at sourced
      obtain ⟨coroutine, seen, known, same, done⟩ := sourced
      exact ⟨coroutine, seen, known, kept known same done, done⟩
  | coercing value =>
      rw [phase] at sourced
      exact answered sourced
  | returned verdict =>
      rw [phase] at sourced
      cases verdict with
      | false => trivial
      | true =>
          obtain ⟨value, before, truthy⟩ := sourced
          exact ⟨value, answered before, truthy⟩
  | scheduling | polling | checking | sleeping | abandoning =>
      rw [phase] at sourced
      exact sourced
  | handler | failed _ | forwarding | raised _ => trivial

/-- What the handler ends with decides the phase after it. -/
theorem sourced_answered (state : IdentityState) (answer : Except PyExc IdentityAnswer) :
    ({ state with phase := state.answered answer, answer := some answer } :
      IdentityState).Sourced := by
  cases answer with
  | error e => trivial
  | ok answer =>
      cases answer with
      | value value => exact .inl rfl
      | coroutine =>
          cases attached : state.loop with
          | none => simp [Sourced, answered, attached]
          | some loop => simp [Sourced, answered, attached]

theorem Sourced.step {state next : IdentityState} {label : IdentityLabel}
    (sourced : state.Sourced) (taken : state.step label = some next) : next.Sourced := by
  unfold IdentityState.step at taken
  split at taken
  -- The handler and the scheduling of its coroutine.
  · cases taken
    exact state.sourced_answered _
  · cases taken
    trivial
  · next phase =>
      cases taken
      simpa only [Sourced, phase] using sourced
  -- The wait.
  · next future phase here =>
      simp only [Sourced, phase] at sourced
      split at taken
      · next done =>
          cases taken
          exact ⟨sourced, rfl, future, here, done⟩
      · cases taken
        exact sourced
  · next expired phase =>
      cases taken
      simp only [Sourced, phase] at sourced
      cases expired <;> exact sourced
  · next phase =>
      cases taken
      simpa only [Sourced, phase] using sourced
  · cases taken
    trivial
  · next future phase here =>
      simp only [Sourced, phase] at sourced
      obtain ⟨coroutine, seen, known, same, done⟩ := sourced
      split at taken
      · next value result =>
          cases taken
          exact .inr ⟨coroutine, seen, future, here, ConcurrentFuture.finished_of_result result⟩
      · cases taken
        trivial
      · cases taken
  -- The verdict.
  · cases taken
    trivial
  · next value phase =>
      cases taken
      simp only [Sourced, phase] at sourced
      cases truthy : value.truth with
      | false => simp [Sourced]
      | true =>
          simp only [Sourced]
          exact ⟨value, sourced, truthy⟩
  -- The `except` clause.
  · split at taken <;> cases taken <;> trivial
  · cases taken
    trivial
  · cases taken
    trivial
  -- The loop and other threads.
  · next future here =>
      cases taken
      exact sourced.settle here _
  · next future here =>
      cases taken
      exact sourced.settle here .cancelled
  · cases taken
    exact sourced
  · cases taken

end IdentityState

/-! ## The check as one call -/

/-- What the native side gets. -/
def IdentityPhase.result : IdentityPhase → Option (Except PyExc Returned)
  | .returned verdict => some (.ok (.value (.bool verdict)))
  | .raised e => some (.error e)
  | _ => none

section Call

variable {dispatcher : Dispatcher} {running : Option LoopId} (react : Reactions) {world : World}

/-- The steps from an exception to the end of the call. -/
theorem failed_reaches {errorHandler : Option HandlerId} {state : IdentityState} {e : PyExc}
    (reached : (identityCheck dispatcher running errorHandler).Reached System.Free state)
    (failed : state.phase = .failed e)
    (current : state.errorHandler = world.dispatcher.errorHandler) :
    ∃ final, (identityCheck dispatcher running errorHandler).Reached System.Free final ∧
      final.phase.result = some (forwarded react (.value (.bool false)) e world).1 := by
  rw [forwarded]
  cases set : world.dispatcher.errorHandler with
  | none =>
      refine ⟨{ state with phase := .raised e }, reached.take .catchFailure trivial ?_, rfl⟩
      simp [identityCheck, IdentityState.step, failed, current, set]
  | some handler =>
      have forwards : (identityCheck dispatcher running errorHandler).Reached System.Free
          { state with phase := .forwarding } := by
        apply reached.take .catchFailure trivial
        simp [identityCheck, IdentityState.step, failed, current, set]
      cases reaction : react handler e with
      | ok done =>
          exact ⟨{ state with phase := .returned false },
            forwards.take (.reported (.ok done)) trivial rfl, by simp [reaction]; rfl⟩
      | error raised =>
          exact ⟨{ state with phase := .raised raised },
            forwards.take (.reported (.error raised)) trivial rfl, by simp [reaction]; rfl⟩

/-- The wrapper run as one call ends as some run of the steps does. -/
theorem identityWrapper_reaches (behaviour : Behaviour) :
    ∃ final, (identityCheck dispatcher running world.dispatcher.errorHandler).Reached
        System.Free final ∧
      final.phase.result = some (((dispatcher.wrapIdentity running).2.invoke react.handlers
        behaviour.callback).exec world).1 := by
  have call : (((dispatcher.wrapIdentity running).2.invoke react.handlers
      behaviour.callback).exec world).1 =
        (invokeAndSettle react.handlers (dispatcher.wrapIdentity running).2 behaviour.callback
          world).1 := rfl
  have wraps : (dispatcher.wrapIdentity running).2 =
      .identity (dispatcher.detectLoop running).loop dispatcher.resultTimeout := by
    rw [Dispatcher.wrapIdentity, Dispatcher.detectLoop]
    split <;> rfl
  rw [call, wraps]
  let check := identityCheck dispatcher running world.dispatcher.errorHandler
  have start : check.Reached System.Free check.initial := .refl
  cases behaviour with
  | returns value =>
      have answered := start.take (.handlerEnds (.ok (.value value))) trivial rfl
      refine ⟨_, answered.take (.coerce none) trivial rfl, ?_⟩
      rw [settle_returns]
      rfl
  | raises e =>
      rw [settle_raises]
      exact failed_reaches react (start.take (.handlerEnds (.error e)) trivial rfl) rfl rfl
  | returnsCoroutine coroutine =>
      have answered := start.take (.handlerEnds (.ok .coroutine)) trivial rfl
      cases attached : (dispatcher.detectLoop running).loop with
      | none =>
          rw [settle_identity_none_coroutine]
          refine failed_reaches react answered ?_ rfl
          simp [check, identityCheck, IdentityState.answered, attached]
      | some loop =>
          have scheduled : check.Reached System.Free
              { check.initial with
                phase := .polling, answer := some (.ok .coroutine), future := some {} } := by
            apply answered.take (.schedule none) trivial
            simp [check, identityCheck, IdentityState.step, IdentityState.answered, attached]
          rw [settle_identity_some_coroutine]
          cases inTime : coroutine.inTime with
          | true =>
              have waited : coroutine.waitOutcome dispatcher.resultTimeout = coroutine.outcome := by
                rw [Coroutine.waitOutcome, if_pos inTime]
              rw [waited]
              cases coroutine.outcome with
              | ok value =>
                  have completed := scheduled.take (.complete (.ok value)) trivial rfl
                  have polled := completed.take .poll trivial rfl
                  have collected := polled.take .collect trivial rfl
                  exact ⟨_, collected.take (.coerce none) trivial rfl, rfl⟩
              | error e =>
                  have completed := scheduled.take (.complete (.error e)) trivial rfl
                  have polled := completed.take .poll trivial rfl
                  exact failed_reaches react (polled.take .collect trivial rfl) rfl rfl
          | false =>
              have waited : coroutine.waitOutcome dispatcher.resultTimeout =
                  .error (callbackTimeout dispatcher.resultTimeout) := by
                rw [Coroutine.waitOutcome, if_neg (by simp [inTime])]
              have polled := scheduled.take .poll trivial rfl
              have expired := polled.take (.readClock true) trivial rfl
              rw [waited]
              exact failed_reaches react (expired.take .abandon trivial rfl) rfl rfl

end Call

/-- A check that does not raise gives a verdict, and accepts only if the handler returned
a truthy value, or its coroutine did and the wait has seen it done. -/
theorem identityCheck_failsClosed (dispatcher : Dispatcher) (running : Option LoopId)
    (errorHandler : Option HandlerId) (state : IdentityState)
    (reached : (identityCheck dispatcher running errorHandler).Reached System.Free state)
    (outcome : Except PyExc Returned) (ended : state.phase.result = some outcome) :
    outcome = .ok (.value (.bool false)) ∨ (∃ e, outcome = .error e) ∨
      outcome = .ok (.value (.bool true)) ∧
        ∃ value, state.Answered value ∧ value.truth = true := by
  have sourced : state.Sourced := by
    apply reached.invariant IdentityState.Sourced
    · trivial
    · intro state label next sourced _ taken
      exact sourced.step taken
  rw [IdentityState.Sourced] at sourced
  cases phase : state.phase with
  | returned verdict =>
      rw [phase] at ended sourced
      cases ended
      cases verdict with
      | false => exact .inl rfl
      | true => exact .inr (.inr ⟨rfl, sourced⟩)
  | raised e =>
      rw [phase] at ended
      cases ended
      exact .inr (.inl ⟨e, rfl⟩)
  | handler | scheduling | polling | checking | sleeping | abandoning | collecting
  | coercing _ | failed _ | forwarding =>
      rw [phase] at ended
      cases ended

/-- A coroutine that returns `1` during a sleep of the wait. -/
theorem identityCheck_failsClosed_async :
    ∃ value, IdentityState.Answered
      { loop := some 1
        resultTimeout := ⟨5, "5.0"⟩
        errorHandler := none
        phase := .returned true
        answer := some (.ok .coroutine)
        future := some { state := .finished (.ok (.int 1)) }
        observed := true } value ∧ value.truth = true := by
  have ran : (identityCheck { loop := some 1 } none none).run System.Free
      (identityCheck { loop := some 1 } none none).initial
      [.handlerEnds (.ok .coroutine), .schedule none, .poll, .readClock false,
        .complete (.ok (.int 1)), .wake, .poll, .collect, .coerce none] = some _ := rfl
  rcases identityCheck_failsClosed { loop := some 1 } none none _ (System.along_of_run ran) _ rfl
    with refused | ⟨e, raised⟩ | ⟨-, accepted⟩
  · cases refused
  · cases raised
  · exact accepted

end ObscuraProto
