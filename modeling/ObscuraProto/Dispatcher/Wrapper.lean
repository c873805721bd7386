import ObscuraProto.Dispatcher.World

/-!
# The dispatcher's wrappers

`_CallbackDispatcher` turns a user callback into the callable the native side
stores.  The event loop is captured when the callback is wrapped; the error
handler is read when the wrapper is invoked.
-/

namespace ObscuraProto

/-! ## Configuration -/

namespace Dispatcher

def setErrorHandler (handler : Option HandlerId) (dispatcher : Dispatcher) : Dispatcher :=
  { dispatcher with errorHandler := handler }

/-- `attach(loop)`: without an argument the running loop is taken, then the
default one. -/
def attach (loop running default : Option LoopId) (dispatcher : Dispatcher) : Dispatcher :=
  match loop.or (running.or default) with
  | some loop => { dispatcher with loop := some loop }
  | none => dispatcher

/-- The auto-detection in front of every `wrap`: a running loop is attached when
there is none yet. -/
def detectLoop (running : Option LoopId) (dispatcher : Dispatcher) : Dispatcher :=
  if dispatcher.loop.isNone then { dispatcher with loop := running } else dispatcher

end Dispatcher

/-- Which closure a wrapped callback is, with the loop and timeout it
captured. -/
inductive Wrapper where
  | sync
  | fireAndForget (loop : LoopId)
  | withResult (loop : LoopId) (resultTimeout : Seconds)
  | identity (loop : Option LoopId) (resultTimeout : Seconds)
  deriving DecidableEq

namespace Dispatcher

/-- `wrap`. -/
def wrap (running : Option LoopId) (dispatcher : Dispatcher) : Dispatcher × Wrapper :=
  let dispatcher := dispatcher.detectLoop running
  match dispatcher.loop with
  | none => (dispatcher, .sync)
  | some loop => (dispatcher, .withResult loop dispatcher.resultTimeout)

/-- `wrap_fire_and_forget`. -/
def wrapFireAndForget (running : Option LoopId) (dispatcher : Dispatcher) :
    Dispatcher × Wrapper :=
  let dispatcher := dispatcher.detectLoop running
  match dispatcher.loop with
  | some loop => (dispatcher, .fireAndForget loop)
  | none => (dispatcher, .sync)

/-- `wrap_identity`. -/
def wrapIdentity (running : Option LoopId) (dispatcher : Dispatcher) :
    Dispatcher × Wrapper :=
  let dispatcher := dispatcher.detectLoop running
  (dispatcher, .identity dispatcher.loop dispatcher.resultTimeout)

end Dispatcher

/-! ## Invocation -/

/-- `asyncio.run_coroutine_threadsafe(coroutine, loop)`. -/
def runCoroutineThreadsafe (coroutine : Coroutine) (loop : LoopId) : Py PUnit :=
  modify fun world => { world with scheduled := world.scheduled ++ [(loop, coroutine)] }

def callbackTimeout (timeout : Seconds) : PyExc :=
  .timeoutError s!"async callback did not complete within {timeout.text}s"

/-- `_wait_future_with_polling` on the future of a scheduled coroutine: its
outcome when a poll sees it done in time, and otherwise the coroutine is
abandoned. -/
def waitFutureWithPolling (coroutine : Coroutine) (timeout : Seconds) : Py PyValue := do
  if coroutine.inTime then
    Py.ofExcept coroutine.outcome
  else
    modify fun world => { world with abandoned := world.abandoned ++ [coroutine] }
    throw (callbackTimeout timeout)

def noLoopAttached : PyExc :=
  .runtimeError "Cannot schedule async identity handler: no event loop attached"

section Invocation

-- `handlers` is what each error handler does when it is called.
variable (handlers : HandlerId → PyExc → Py PUnit)

def callErrorHandler (handler : HandlerId) (e : PyExc) : Py PUnit := do
  modify fun world => { world with reports := world.reports ++ [(handler, e)] }
  handlers handler e

/-- The `except Exception` clause of every wrapper: with an error handler set the
exception is forwarded and `absorbed` returned, without one it is re-raised. -/
def forwardOrRaise (absorbed : Returned) (e : PyExc) : Py Returned := do
  match (← get).dispatcher.errorHandler with
  | some handler => do
      callErrorHandler handlers handler e
      return absorbed
  | none => throw e

/-- The closure made by `_wrap_sync`. -/
def wrapSync (fn : Py Returned) : Py Returned :=
  withCallbackFlag (tryCatch fn (forwardOrRaise handlers (.value .none)))

/-- The closure made by `_wrap_async_fire_and_forget`. -/
def wrapAsyncFireAndForget (loop : LoopId) (fn : Py Returned) : Py Returned :=
  withCallbackFlag do
    tryCatch (do
      match ← fn with
      | .coroutine coroutine => do
          runCoroutineThreadsafe coroutine loop
          match (← get).dispatcher.errorHandler with
          | some handler =>
              modify fun world =>
                { world with doneCallbacks := world.doneCallbacks ++ [(coroutine, handler)] }
          | none => pure ⟨⟩
          return .value .none
      | .value value => return .value value)
      (forwardOrRaise handlers (.value .none))

/-- The closure made by `_wrap_async_with_result`.  A failed wait is handled by
an inner `except`, inside the `try` of the whole body. -/
def wrapAsyncWithResult (loop : LoopId) (resultTimeout : Seconds) (fn : Py Returned) :
    Py Returned :=
  withCallbackFlag do
    tryCatch (do
      match ← fn with
      | .coroutine coroutine => do
          runCoroutineThreadsafe coroutine loop
          tryCatch (do return .value (← waitFutureWithPolling coroutine resultTimeout))
            (forwardOrRaise handlers (.value .none))
      | .value value => return .value value)
      (forwardOrRaise handlers (.value .none))

/-- The closure made by `wrap_identity`. -/
def identityWrapper (loop : Option LoopId) (resultTimeout : Seconds) (handler : Py Returned) :
    Py Returned :=
  withCallbackFlag do
    tryCatch (do
      match ← handler with
      | .coroutine coroutine =>
          match loop with
          | some loop => do
              runCoroutineThreadsafe coroutine loop
              let result ← waitFutureWithPolling coroutine resultTimeout
              return .value (.bool result.truth)
          | none => throw noLoopAttached
      | .value result => return .value (.bool result.truth))
      (forwardOrRaise handlers (.value (.bool false)))

/-- Calling a wrapped callback from the native side. -/
def Wrapper.invoke (fn : Py Returned) : Wrapper → Py Returned
  | .sync => wrapSync handlers fn
  | .fireAndForget loop => wrapAsyncFireAndForget handlers loop fn
  | .withResult loop resultTimeout => wrapAsyncWithResult handlers loop resultTimeout fn
  | .identity loop resultTimeout => identityWrapper handlers loop resultTimeout fn

/-- `_forward_error`, run when the coroutine is done. -/
def forwardError (coroutine : Coroutine) (handler : HandlerId) : Py PUnit :=
  match coroutine.outcome with
  | .ok _ => pure ⟨⟩
  | .error e => callErrorHandler handlers handler e

/-- The done-callbacks of finished futures.  An exception of a done-callback is
logged by the future and goes no further. -/
def runDoneCallbacks : List (Coroutine × HandlerId) → Py PUnit
  | [] => pure ⟨⟩
  | (coroutine, handler) :: rest => do
      tryCatch (forwardError handlers coroutine handler) fun _ => pure ⟨⟩
      runDoneCallbacks rest

/-- A native call of a wrapped callback followed by the completion of the
coroutine it scheduled. -/
def invokeAndSettle (wrapper : Wrapper) (fn : Py Returned) (world : World) :
    Except PyExc Returned × World :=
  match (wrapper.invoke handlers fn).exec world with
  | (result, after) =>
      (result, ((runDoneCallbacks handlers
        (after.doneCallbacks.drop world.doneCallbacks.length)).exec after).2)

end Invocation

end ObscuraProto
