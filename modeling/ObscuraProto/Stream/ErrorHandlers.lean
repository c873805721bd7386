import ObscuraProto.Dispatcher.Invocation
import ObscuraProto.Library.Processes
import ObscuraProto.Library.Transition

/-!
# Error handlers of an endpoint and its streams

Every stream obtained from an endpoint is given the endpoint's dispatcher, and
`on_error` of a stream sets the error handler of the dispatcher it was given.
-/

namespace ObscuraProto

open Transition Processes

abbrev DispatcherId := Nat

/-- A `Stream`, with the reference in its `_dispatcher` attribute. -/
structure Stream where
  dispatcher : Option DispatcherId := none
  deriving DecidableEq

/-- `set_dispatcher`. -/
def Stream.setDispatcher (dispatcher : DispatcherId) (stream : Stream) : Stream :=
  { stream with dispatcher := some dispatcher }

/-- The dispatchers in memory, the one the endpoint refers to, and the streams
obtained from the endpoint. -/
structure ErrorState where
  dispatchers : List Dispatcher
  endpoint : DispatcherId
  streams : List Stream := []
  deriving DecidableEq

/-- A stream by its position among those obtained. -/
abbrev StreamIndex := Nat

inductive ErrorCall where
  /-- `start_stream`, `async_start_stream`, or an incoming stream. -/
  | obtainStream
  | onError (handler : HandlerId)
  | streamOnError (stream : StreamIndex) (handler : HandlerId)
  deriving DecidableEq

namespace ErrorState

/-- `set_error_handler` on the dispatcher behind a reference. -/
def setErrorHandler (state : ErrorState) (dispatcher : DispatcherId) (handler : HandlerId) :
    ErrorState :=
  { state with
    dispatchers := state.dispatchers.modify dispatcher (·.setErrorHandler (some handler)) }

def step (state : ErrorState) : ErrorCall → Option ErrorState
  | .obtainStream =>
      some { state with streams := state.streams ++ [Stream.setDispatcher state.endpoint {}] }
  | .onError handler => some (state.setErrorHandler state.endpoint handler)
  | .streamOnError index handler =>
      match state.streams[index]? with
      | some stream =>
          match stream.dispatcher with
          | some dispatcher => some (state.setErrorHandler dispatcher handler)
          | none => some state
      | none => none

end ErrorState

/-- A fresh endpoint, and the calls made on it and its streams. -/
def errorHandlers : System ErrorState ErrorCall where
  initial := { dispatchers := [{}], endpoint := 0 }
  step := ErrorState.step

/-! ## Where an exception goes -/

/-- Whose callback raised. -/
inductive Origin where
  | endpoint
  | stream (stream : StreamIndex)
  deriving DecidableEq

namespace ErrorState

/-- The dispatcher that wraps the callbacks of an origin. -/
def dispatcherOf (state : ErrorState) : Origin → Option Dispatcher
  | .endpoint => state.dispatchers[state.endpoint]?
  | .stream index =>
      state.streams[index]?.bind fun stream =>
        stream.dispatcher.bind fun dispatcher => state.dispatchers[dispatcher]?

/-- The origin is the endpoint or a stream obtained from it. -/
def Has (state : ErrorState) : Origin → Prop
  | .endpoint => True
  | .stream index => index < state.streams.length

end ErrorState

/-- The callback itself raises, or the coroutine of a fire-and-forget callback
does. -/
inductive FailsWith : Wrapper → Behaviour → PyExc → Prop
  | raised {wrapper : Wrapper} {e : PyExc} : FailsWith wrapper (.raises e) e
  | coroutine {loop : LoopId} {coroutine : Coroutine} {e : PyExc}
      (outcome : coroutine.outcome = .error e) :
      FailsWith (.fireAndForget loop) (.returnsCoroutine coroutine) e

/-- Failures of callbacks behind a dispatcher are reported to the given handler, or
to none. -/
def Dispatcher.ReportsTo (dispatcher : Dispatcher) (handler : Option HandlerId) : Prop :=
  ∀ (react : Reactions) (wrapper : Wrapper) (behaviour : Behaviour) (e : PyExc) (world : World),
    FailsWith wrapper behaviour e →
      (invokeAndSettle react.handlers wrapper behaviour.callback
        { world with dispatcher }).2.reports =
          world.reports ++ (handler.map fun handler => (handler, e)).toList

theorem Dispatcher.reportsTo_errorHandler (dispatcher : Dispatcher) :
    dispatcher.ReportsTo dispatcher.errorHandler := by
  intro react wrapper behaviour e world failing
  cases failing with
  | raised =>
      rw [settle_raises, forwarded]
      cases dispatcher.errorHandler <;> simp
  | coroutine outcome =>
      rw [settle_fireAndForget_coroutine]
      cases dispatcher.errorHandler <;> simp [Coroutine.failure, outcome]

theorem Dispatcher.reportsTo_iff (dispatcher : Dispatcher) (handler : Option HandlerId) :
    dispatcher.ReportsTo handler ↔ dispatcher.errorHandler = handler := by
  constructor
  · intro reports
    have one := reports (fun _ _ => .ok ⟨⟩) .sync (.raises (.runtimeError "")) _ {} .raised
    rw [dispatcher.reportsTo_errorHandler (fun _ _ => .ok ⟨⟩) .sync _ _ {} .raised] at one
    cases set : dispatcher.errorHandler <;> cases handler <;> simp_all
  · rintro rfl
    exact dispatcher.reportsTo_errorHandler

/-! ## The registrations in a sequence of calls -/

namespace ErrorCall

/-- The handler a call registers on an origin. -/
def handlerOn : Origin → ErrorCall → Option HandlerId
  | .endpoint, .onError handler => some handler
  | .stream index, .streamOnError stream handler =>
      if stream = index then some handler else none
  | _, _ => none

/-- The handler a call registers. -/
def handler : ErrorCall → Option HandlerId
  | obtainStream => none
  | onError handler | streamOnError _ handler => some handler

theorem handlerOn_eq_none {call : ErrorCall} (silent : call.handler = none) (origin : Origin) :
    call.handlerOn origin = none := by
  cases call with
  | obtainStream => cases origin <;> rfl
  | onError | streamOnError => cases silent

theorem exists_handlerOn {call : ErrorCall} {registered : HandlerId}
    (registers : call.handler = some registered) :
    ∃ origin, call.handlerOn origin = some registered := by
  cases call with
  | obtainStream => cases registers
  | onError handler => exact ⟨.endpoint, registers⟩
  | streamOnError stream handler =>
      refine ⟨.stream stream, ?_⟩
      simpa [handlerOn, ErrorCall.handler] using registers

end ErrorCall

/-- The handler registered last on an origin. -/
def lastOn (origin : Origin) (calls : List ErrorCall) : Option HandlerId :=
  calls.reverse.findSome? (·.handlerOn origin)

def lastRegistered (calls : List ErrorCall) : Option HandlerId :=
  calls.reverse.findSome? (·.handler)

@[simp] theorem lastOn_cons (origin : Origin) (call : ErrorCall) (calls : List ErrorCall) :
    lastOn origin (call :: calls) = (lastOn origin calls).or (call.handlerOn origin) := by
  simp [lastOn, List.findSome?_append]

@[simp] theorem lastRegistered_cons (call : ErrorCall) (calls : List ErrorCall) :
    lastRegistered (call :: calls) = (lastRegistered calls).or call.handler := by
  simp [lastRegistered, List.findSome?_append]

/-- The last registration is the last one on some origin. -/
theorem exists_lastOn {calls : List ErrorCall} {registered : HandlerId}
    (last : lastRegistered calls = some registered) :
    ∃ origin, lastOn origin calls = some registered := by
  rw [lastRegistered] at last
  obtain ⟨before, call, after, split, registers, silent⟩ := List.findSome?_eq_some_iff.mp last
  obtain ⟨origin, here⟩ := ErrorCall.exists_handlerOn registers
  refine ⟨origin, List.findSome?_eq_some_iff.mpr ⟨before, call, after, split, here, ?_⟩⟩
  intro other member
  exact ErrorCall.handlerOn_eq_none (silent other member) origin

theorem lastOn_eq_none {calls : List ErrorCall} (silent : lastRegistered calls = none)
    (origin : Origin) : lastOn origin calls = none := by
  rw [lastRegistered, List.findSome?_eq_none_iff] at silent
  rw [lastOn, List.findSome?_eq_none_iff]
  intro call member
  exact ErrorCall.handlerOn_eq_none (silent call member) origin

/-- The handler the exceptions of an origin should go to: the last one of the
stream itself, or else the endpoint's. -/
def expectedHandler (calls : List ErrorCall) : Origin → Option HandlerId
  | .endpoint => lastOn .endpoint calls
  | .stream index => (lastOn (.stream index) calls).or (lastOn .endpoint calls)

/-- The calls without the registrations on one stream. -/
def withoutStream (index : StreamIndex) (calls : List ErrorCall) : List ErrorCall :=
  calls.filter fun call => (call.handlerOn (.stream index)).isNone

theorem handlerOn_obtain (origin : Origin) : ErrorCall.obtainStream.handlerOn origin = none :=
  ErrorCall.handlerOn_eq_none rfl origin

/-- Two origins are not registered on by one call. -/
theorem handlerOn_eq_none_of_stream {index : StreamIndex} {origin : Origin} {call : ErrorCall}
    (apart : origin ≠ .stream index) (registers : call.handlerOn (.stream index) ≠ none) :
    call.handlerOn origin = none := by
  cases call with
  | obtainStream => exact handlerOn_obtain origin
  | onError handler => exact absurd rfl registers
  | streamOnError stream handler =>
      cases origin with
      | endpoint => rfl
      | stream other =>
          simp only [ErrorCall.handlerOn, ne_eq, ite_eq_right_iff, reduceCtorEq, imp_false,
            not_not] at registers
          subst registers
          simp only [ne_eq, Origin.stream.injEq] at apart
          exact if_neg (Ne.symm apart)

theorem lastOn_withoutStream {index : StreamIndex} {origin : Origin} (calls : List ErrorCall) :
    lastOn origin (withoutStream index calls) =
      if origin = .stream index then none else lastOn origin calls := by
  induction calls with
  | nil => simp [withoutStream, lastOn]
  | cons call calls ih =>
      simp only [withoutStream, List.filter_cons] at ih ⊢
      split
      · next silent =>
          rw [lastOn_cons, ih, lastOn_cons]
          split
          · next same =>
              rw [same, Option.isNone_iff_eq_none.mp silent]
              rfl
          · rfl
      · next registers =>
          rw [ih, lastOn_cons]
          split
          · rfl
          · next apart =>
              rw [handlerOn_eq_none_of_stream apart (by simpa using registers), Option.or_none]

/-! ## The dispatcher all of them share -/

namespace ErrorState

/-- Every stream refers to the dispatcher of its endpoint. -/
structure Shared (state : ErrorState) : Prop where
  found : ∃ dispatcher, state.dispatchers[state.endpoint]? = some dispatcher
  streams : ∀ stream ∈ state.streams, stream.dispatcher = some state.endpoint

/-- The error handler of the endpoint's dispatcher. -/
def errorHandler (state : ErrorState) : Option HandlerId :=
  state.dispatchers[state.endpoint]?.bind (·.errorHandler)

variable {state next final : ErrorState} {call : ErrorCall} {calls : List ErrorCall}

theorem shared_initial : errorHandlers.initial.Shared :=
  ⟨⟨{}, rfl⟩, fun _ member => nomatch member⟩

/-- What a call does: a new stream gets the shared dispatcher, and a registration
sets its error handler, whoever it is made on. -/
theorem step_cases (shared : state.Shared) (stepped : state.step call = some next) :
    (call = .obtainStream ∧
      next = { state with streams := state.streams ++ [⟨some state.endpoint⟩] }) ∨
    ∃ handler, call.handler = some handler ∧
      next = state.setErrorHandler state.endpoint handler ∧
      ∀ index, call.handlerOn (.stream index) ≠ none → index < state.streams.length := by
  cases call with
  | obtainStream => cases stepped; exact .inl ⟨rfl, rfl⟩
  | onError handler =>
      cases stepped
      exact .inr ⟨handler, rfl, rfl, fun index registers => absurd rfl registers⟩
  | streamOnError index handler =>
      simp only [step] at stepped
      cases found : state.streams[index]? with
      | none => simp [found] at stepped
      | some stream =>
          simp only [found, shared.streams stream (List.mem_of_getElem? found)] at stepped
          cases stepped
          refine .inr ⟨handler, rfl, rfl, ?_⟩
          intro other registers
          have same : index = other := by simpa [ErrorCall.handlerOn] using registers
          exact same ▸ (List.getElem?_eq_some_iff.mp found).1

theorem Shared.setErrorHandler (shared : state.Shared) (handler : HandlerId) :
    (state.setErrorHandler state.endpoint handler).Shared := by
  obtain ⟨dispatcher, found⟩ := shared.found
  exact ⟨⟨dispatcher.setErrorHandler (some handler), by
    simp [ErrorState.setErrorHandler, found]⟩, shared.streams⟩

theorem errorHandler_setErrorHandler (shared : state.Shared) (handler : HandlerId) :
    (state.setErrorHandler state.endpoint handler).errorHandler = some handler := by
  obtain ⟨dispatcher, found⟩ := shared.found
  simp [errorHandler, setErrorHandler, found, Dispatcher.setErrorHandler]

theorem Shared.step (shared : state.Shared) (stepped : state.step call = some next) :
    next.Shared := by
  rcases step_cases shared stepped with ⟨-, rfl⟩ | ⟨handler, -, rfl, -⟩
  · exact ⟨shared.found, by simpa [or_imp, forall_and] using shared.streams⟩
  · exact shared.setErrorHandler handler

theorem errorHandler_step (shared : state.Shared) (stepped : state.step call = some next) :
    next.errorHandler = call.handler.or state.errorHandler := by
  rcases step_cases shared stepped with ⟨rfl, rfl⟩ | ⟨handler, registers, rfl, -⟩
  · rfl
  · rw [registers, errorHandler_setErrorHandler shared handler]
    rfl

theorem streams_length_step (shared : state.Shared) (stepped : state.step call = some next) :
    next.streams.length = state.streams.length + [call].count .obtainStream := by
  rcases step_cases shared stepped with ⟨rfl, rfl⟩ | ⟨handler, registers, rfl, -⟩
  · simp
  · have other : call ≠ .obtainStream := by
      intro same
      rw [same] at registers
      cases registers
    rw [List.count_cons_of_ne other]
    rfl

/-- Only a stream that was obtained has an error handler registered on it. -/
theorem index_lt_of_handlerOn {index : StreamIndex} (shared : state.Shared)
    (stepped : state.step call = some next) (registers : call.handlerOn (.stream index) ≠ none) :
    index < state.streams.length := by
  rcases step_cases shared stepped with ⟨rfl, -⟩ | ⟨handler, -, -, known⟩
  · exact absurd (handlerOn_obtain _) registers
  · exact known index registers

theorem Shared.run (shared : state.Shared)
    (ran : errorHandlers.run System.Free state calls = some final) : final.Shared := by
  apply (System.along_of_run ran).invariant Shared shared
  intro state call next shared _ stepped
  exact shared.step stepped

/-- A sequence of calls leaves the handler registered last, on whatever origin. -/
theorem errorHandler_run (shared : state.Shared)
    (ran : errorHandlers.run System.Free state calls = some final) :
    final.errorHandler = (lastRegistered calls).or state.errorHandler := by
  induction calls generalizing state with
  | nil =>
      cases ran
      rfl
  | cons call calls ih =>
      obtain ⟨-, next, stepped, later⟩ := System.run_cons ran
      rw [ih (shared.step stepped) later, errorHandler_step shared stepped, lastRegistered_cons,
        Option.or_assoc]

theorem streams_length_run (shared : state.Shared)
    (ran : errorHandlers.run System.Free state calls = some final) :
    final.streams.length = state.streams.length + calls.count .obtainStream := by
  induction calls generalizing state with
  | nil =>
      cases ran
      rfl
  | cons call calls ih =>
      obtain ⟨-, next, stepped, later⟩ := System.run_cons ran
      have split : (call :: calls).count .obtainStream =
          [call].count .obtainStream + calls.count .obtainStream := by
        rw [← List.count_append, List.singleton_append]
      rw [ih (shared.step stepped) later, streams_length_step shared stepped, split,
        Nat.add_assoc]

theorem index_lt_of_lastOn {index : StreamIndex} (shared : state.Shared)
    (ran : errorHandlers.run System.Free state calls = some final)
    (registered : lastOn (.stream index) calls ≠ none) : index < final.streams.length := by
  induction calls generalizing state with
  | nil => exact absurd rfl registered
  | cons call calls ih =>
      obtain ⟨-, next, stepped, later⟩ := System.run_cons ran
      by_cases after : lastOn (.stream index) calls = none
      · rw [lastOn_cons, after, Option.none_or] at registered
        rw [streams_length_run shared ran]
        exact Nat.lt_add_right _ (index_lt_of_handlerOn shared stepped registered)
      · exact ih (shared.step stepped) later after

/-- Every existing origin is wrapped by the shared dispatcher. -/
theorem Shared.dispatcherOf_eq (shared : state.Shared) {origin : Origin}
    (present : state.Has origin) :
    state.dispatcherOf origin = state.dispatchers[state.endpoint]? := by
  cases origin with
  | endpoint => rfl
  | stream index =>
      have found := List.getElem?_eq_getElem present
      simp only [dispatcherOf, found, Option.bind_some,
        shared.streams _ (List.mem_of_getElem? found)]

/-- Every existing origin reports to the one handler of the shared dispatcher. -/
theorem Shared.exists_dispatcherOf (shared : state.Shared) {origin : Origin}
    (present : state.Has origin) :
    ∃ dispatcher, state.dispatcherOf origin = some dispatcher ∧
      dispatcher.errorHandler = state.errorHandler := by
  obtain ⟨dispatcher, found⟩ := shared.found
  refine ⟨dispatcher, (shared.dispatcherOf_eq present).trans found, ?_⟩
  rw [errorHandler, found, Option.bind_some]

theorem errorHandler_of_initial
    (ran : errorHandlers.run System.Free errorHandlers.initial calls = some state) :
    state.errorHandler = lastRegistered calls := by
  rw [errorHandler_run shared_initial ran]
  exact Option.or_none

/-- The same origins exist without the registrations on one stream. -/
theorem has_withoutStream {without : ErrorState} {index : StreamIndex} {origin : Origin}
    (ran : errorHandlers.run System.Free errorHandlers.initial calls = some state)
    (ranWithout : errorHandlers.run System.Free errorHandlers.initial
      (withoutStream index calls) = some without)
    (present : state.Has origin) : without.Has origin := by
  cases origin with
  | endpoint => trivial
  | stream other =>
      have streams : (withoutStream index calls).count .obtainStream =
          calls.count .obtainStream := by
        rw [withoutStream, List.count_filter]
        simp [handlerOn_obtain]
      have same : without.streams.length = state.streams.length := by
        rw [streams_length_run shared_initial ranWithout, streams_length_run shared_initial ran,
          streams]
      rw [Has, same]
      exact present

end ErrorState

open ErrorState

/-- Exceptions of every origin go where they should, and leaving out the
registrations on one stream changes nothing for the others. -/
structure Isolated (calls : List ErrorCall) (state : ErrorState) : Prop where
  own : ∀ origin, state.Has origin → ∃ dispatcher,
    state.dispatcherOf origin = some dispatcher ∧
      dispatcher.ReportsTo (expectedHandler calls origin)
  frame : ∀ index without,
    errorHandlers.run System.Free errorHandlers.initial (withoutStream index calls) =
        some without →
      ∀ origin, origin ≠ .stream index → state.Has origin →
        (without.dispatcherOf origin).map (·.errorHandler) =
          (state.dispatcherOf origin).map (·.errorHandler)

/-! ## When the streams have no handler but the endpoint's -/

section Agree

variable {calls : List ErrorCall}
  (agree : ∀ index handler, lastOn (.stream index) calls = some handler →
    lastOn .endpoint calls = some handler)

include agree

theorem lastRegistered_eq : lastRegistered calls = lastOn .endpoint calls := by
  cases last : lastRegistered calls with
  | none => rw [lastOn_eq_none last]
  | some handler =>
      obtain ⟨origin, here⟩ := exists_lastOn last
      cases origin with
      | endpoint => exact here.symm
      | stream index => exact (agree index handler here).symm

theorem expectedHandler_eq (origin : Origin) :
    expectedHandler calls origin = lastOn .endpoint calls := by
  cases origin with
  | endpoint => rfl
  | stream index =>
      cases own : lastOn (.stream index) calls with
      | none => simp [expectedHandler, own]
      | some handler => simp [expectedHandler, own, agree index handler own]

theorem lastRegistered_withoutStream (index : StreamIndex) :
    lastRegistered (withoutStream index calls) = lastRegistered calls := by
  have others : ∀ other handler,
      lastOn (.stream other) (withoutStream index calls) = some handler →
        lastOn .endpoint (withoutStream index calls) = some handler := by
    intro other handler here
    rw [lastOn_withoutStream] at here ⊢
    split at here
    · cases here
    · rw [if_neg nofun]
      exact agree other handler here
  rw [lastRegistered_eq agree, lastRegistered_eq others, lastOn_withoutStream, if_neg nofun]

end Agree

/-- Failures are isolated exactly when every stream that has a handler has the
endpoint's current one. -/
theorem streamErrors_isolated_iff (calls : List ErrorCall) (state : ErrorState)
    (ran : errorHandlers.run System.Free errorHandlers.initial calls = some state) :
    Isolated calls state ↔
      ∀ index handler, lastOn (.stream index) calls = some handler →
        lastOn .endpoint calls = some handler := by
  have shared := shared_initial.run ran
  have current := errorHandler_of_initial ran
  constructor
  · intro isolated index handler last
    have goes : ∀ origin, state.Has origin →
        lastRegistered calls = expectedHandler calls origin := by
      intro origin present
      obtain ⟨dispatcher, wraps, reports⟩ := isolated.own origin present
      obtain ⟨known, wrapsKnown, set⟩ := shared.exists_dispatcherOf present
      have same : dispatcher = known := Option.some.inj (wraps.symm.trans wrapsKnown)
      rw [← current, ← set, ← same, (dispatcher.reportsTo_iff _).mp reports]
    have atEndpoint := goes .endpoint trivial
    have obtained : index < state.streams.length :=
      index_lt_of_lastOn shared_initial ran (by simp [last])
    have atStream := goes (.stream index) obtained
    rw [atEndpoint, expectedHandler, expectedHandler, last, Option.some_or] at atStream
    exact atStream
  · intro agree
    constructor
    · intro origin present
      obtain ⟨dispatcher, wraps, set⟩ := shared.exists_dispatcherOf present
      refine ⟨dispatcher, wraps, ?_⟩
      rw [dispatcher.reportsTo_iff, set, current, lastRegistered_eq agree,
        expectedHandler_eq agree]
    · intro index without ranWithout origin apart present
      obtain ⟨dispatcher, wraps, set⟩ := shared.exists_dispatcherOf present
      obtain ⟨other, wrapsWithout, setWithout⟩ :=
        (shared_initial.run ranWithout).exists_dispatcherOf
          (has_withoutStream ran ranWithout present)
      rw [wraps, wrapsWithout, Option.map_some, Option.map_some, set, setWithout, current,
        errorHandler_of_initial ranWithout, lastRegistered_withoutStream agree]

/-- One handler for the endpoint and its stream. -/
theorem streamErrors_isolated_same :
    Isolated [.onError 1, .obtainStream, .streamOnError 0 1]
      { dispatchers := [{ errorHandler := some 1 }], endpoint := 0, streams := [⟨some 0⟩] } := by
  apply (streamErrors_isolated_iff _ _ (by decide)).mpr
  intro index handler last
  have same : handler = 1 := by
    simp only [lastOn, List.reverse_cons, List.reverse_nil, List.nil_append, List.cons_append,
      List.findSome?_cons, ErrorCall.handlerOn] at last
    split at last
    · next registers =>
        split at registers
        · cases registers; cases last; rfl
        · cases registers
    · cases last
  rw [same]
  rfl

/-- A handler registered on a stream takes the place of the server's. -/
theorem streamErrors_not_isolated :
    ¬ ∀ calls state,
      errorHandlers.run System.Free errorHandlers.initial calls = some state →
        Isolated calls state := by
  intro every
  have isolated := every [.onError 1, .obtainStream, .streamOnError 0 2]
    { dispatchers := [{ errorHandler := some 2 }], endpoint := 0, streams := [⟨some 0⟩] }
    (by decide)
  obtain ⟨dispatcher, wraps, reports⟩ := isolated.own .endpoint trivial
  have current := (dispatcher.reportsTo_iff _).mp reports
  cases wraps
  cases current

end ObscuraProto
