import ObscuraProto.Dispatcher.Wrapper

/-!
# What a wrapped callback does

The result and the final state of every wrapper around every behaviour of a
callback, once the coroutine it scheduled is done.
-/

namespace ObscuraProto

/-- How a user callback behaves when it is called. -/
inductive Behaviour where
  | returns (value : PyValue)
  | raises (e : PyExc)
  | returnsCoroutine (coroutine : Coroutine)
  deriving DecidableEq

namespace Behaviour

def callback : Behaviour → Py Returned
  | returns value => pure (.value value)
  | raises e => throw e
  | returnsCoroutine coroutine => pure (.coroutine coroutine)

end Behaviour

namespace Coroutine

/-- The exception a coroutine ends with. -/
def failure (coroutine : Coroutine) : Option PyExc :=
  match coroutine.outcome with
  | .ok _ => none
  | .error e => some e

/-- What a bounded wait for the coroutine ends with. -/
def waitOutcome (coroutine : Coroutine) (resultTimeout : Seconds) : Except PyExc PyValue :=
  if coroutine.inTime then coroutine.outcome else .error (callbackTimeout resultTimeout)

/-- The exception such a wait ends with. -/
def waitFailure (coroutine : Coroutine) (resultTimeout : Seconds) : Option PyExc :=
  match coroutine.waitOutcome resultTimeout with
  | .ok _ => none
  | .error e => some e

end Coroutine

/-- Error handlers that return or raise. -/
abbrev Reactions := HandlerId → PyExc → Except PyExc Unit

def Reactions.handlers (react : Reactions) : HandlerId → PyExc → Py PUnit :=
  fun handler e => Py.ofExcept (react handler e)

/-! ## One wrapper step at a time -/

/-- The outcome of the `except` clause of a wrapper. -/
def forwarded (react : Reactions) (absorbed : Returned) (e : PyExc) (world : World) :
    Except PyExc Returned × World :=
  match world.dispatcher.errorHandler with
  | none => (.error e, world)
  | some handler =>
      ((react handler e).map fun _ => absorbed,
        { world with reports := world.reports ++ [(handler, e)] })

@[simp] theorem exec_forwardOrRaise (react : Reactions) (absorbed : Returned) (e : PyExc)
    (world : World) :
    (forwardOrRaise react.handlers absorbed e).exec world = forwarded react absorbed e world := by
  rw [forwardOrRaise, forwarded]
  cases set : world.dispatcher.errorHandler with
  | none => simp [set]
  | some handler =>
      cases reaction : react handler e <;>
        simp [set, callErrorHandler, Reactions.handlers, reaction, Except.map]

/-- Done-callbacks report the failures of their coroutines and touch nothing
else. -/
theorem exec_runDoneCallbacks (react : Reactions) (callbacks : List (Coroutine × HandlerId))
    (world : World) :
    (runDoneCallbacks react.handlers callbacks).exec world =
      (.ok ⟨⟩, { world with reports := world.reports ++ callbacks.flatMap fun callback =>
        (callback.1.failure.map fun e => (callback.2, e)).toList }) := by
  induction callbacks generalizing world with
  | nil => simp [runDoneCallbacks]
  | cons callback callbacks ih =>
      obtain ⟨coroutine, handler⟩ := callback
      cases outcome : coroutine.outcome with
      | ok value => simp [runDoneCallbacks, forwardError, Coroutine.failure, outcome, ih]
      | error e =>
          cases reaction : react handler e <;>
            simp [runDoneCallbacks, forwardError, callErrorHandler, Reactions.handlers,
              Coroutine.failure, outcome, reaction, ih]

@[simp] theorem exec_waitFutureWithPolling (coroutine : Coroutine) (resultTimeout : Seconds)
    (world : World) :
    (waitFutureWithPolling coroutine resultTimeout).exec world =
      (coroutine.waitOutcome resultTimeout,
        { world with abandoned :=
            world.abandoned ++ if coroutine.inTime then [] else [coroutine] }) := by
  rw [waitFutureWithPolling, Coroutine.waitOutcome]
  split <;> simp

/-! ## The outcome of a call -/

/-- What the native side gets when the error handler takes an exception. -/
def Wrapper.absorbed : Wrapper → Returned
  | sync | fireAndForget _ | withResult .. => .value .none
  | identity .. => .value (.bool false)

/-- What the native side gets for a value the callback returns. -/
def Wrapper.passed : Wrapper → PyValue → PyValue
  | sync, value | fireAndForget _, value | withResult .., value => value
  | identity .., value => .bool value.truth

/-- The world after a wait for a coroutine that was given to a loop. -/
def World.waited (world : World) (loop : LoopId) (coroutine : Coroutine) : World :=
  { world with
    inCallback := false
    scheduled := world.scheduled ++ [(loop, coroutine)]
    abandoned := world.abandoned ++ if coroutine.inTime then [] else [coroutine] }

section Settle

variable (react : Reactions) (world : World)

theorem settle_returns (wrapper : Wrapper) (value : PyValue) :
    invokeAndSettle react.handlers wrapper (Behaviour.returns value).callback world =
      (.ok (.value (wrapper.passed value)), { world with inCallback := false }) := by
  cases wrapper <;>
    simp [invokeAndSettle, Wrapper.invoke, wrapSync, wrapAsyncFireAndForget,
      wrapAsyncWithResult, identityWrapper, Behaviour.callback, exec_runDoneCallbacks,
      Wrapper.passed]

/-- An exception of the callback itself is treated alike by all wrappers. -/
theorem settle_raises (wrapper : Wrapper) (e : PyExc) :
    invokeAndSettle react.handlers wrapper (Behaviour.raises e).callback world =
      forwarded react wrapper.absorbed e { world with inCallback := false } := by
  cases set : world.dispatcher.errorHandler <;> cases wrapper <;>
    simp [invokeAndSettle, Wrapper.invoke, wrapSync, wrapAsyncFireAndForget,
      wrapAsyncWithResult, identityWrapper, Behaviour.callback, exec_runDoneCallbacks,
      Wrapper.absorbed, forwarded, set]

variable (coroutine : Coroutine)

theorem settle_sync_coroutine :
    invokeAndSettle react.handlers .sync (Behaviour.returnsCoroutine coroutine).callback world =
      (.ok (.coroutine coroutine), { world with inCallback := false }) := by
  simp [invokeAndSettle, Wrapper.invoke, wrapSync, Behaviour.callback, exec_runDoneCallbacks]

/-- The done-callback is installed when an error handler is set at the call. -/
theorem settle_fireAndForget_coroutine (loop : LoopId) :
    invokeAndSettle react.handlers (.fireAndForget loop)
        (Behaviour.returnsCoroutine coroutine).callback world =
      (.ok (.value .none),
        { world with
          inCallback := false
          scheduled := world.scheduled ++ [(loop, coroutine)]
          doneCallbacks := world.doneCallbacks ++
            (world.dispatcher.errorHandler.map fun handler => (coroutine, handler)).toList
          reports := world.reports ++
            (world.dispatcher.errorHandler.bind fun handler =>
              coroutine.failure.map fun e => (handler, e)).toList }) := by
  cases set : world.dispatcher.errorHandler <;>
    simp [invokeAndSettle, Wrapper.invoke, wrapAsyncFireAndForget, runCoroutineThreadsafe,
      Behaviour.callback, exec_runDoneCallbacks, Except.map, set]

/-- A failed wait passes the inner `except`, and what that raises the outer one. -/
theorem settle_withResult_coroutine (loop : LoopId) (resultTimeout : Seconds) :
    invokeAndSettle react.handlers (.withResult loop resultTimeout)
        (Behaviour.returnsCoroutine coroutine).callback world =
      match coroutine.waitOutcome resultTimeout with
      | .ok value => (.ok (.value value), world.waited loop coroutine)
      | .error e =>
          match forwarded react (.value .none) e (world.waited loop coroutine) with
          | (.ok absorbed, after) => (.ok absorbed, after)
          | (.error raised, after) => forwarded react (.value .none) raised after := by
  cases waited : coroutine.waitOutcome resultTimeout with
  | ok value =>
      simp [invokeAndSettle, Wrapper.invoke, wrapAsyncWithResult, runCoroutineThreadsafe,
        Behaviour.callback, exec_runDoneCallbacks, World.waited, Except.map, waited]
  | error e =>
      cases set : world.dispatcher.errorHandler with
      | none =>
          simp [invokeAndSettle, Wrapper.invoke, wrapAsyncWithResult, runCoroutineThreadsafe,
            Behaviour.callback, exec_runDoneCallbacks, World.waited, forwarded, Except.map,
            waited, set]
      | some handler =>
          cases reaction : react handler e <;>
            simp [invokeAndSettle, Wrapper.invoke, wrapAsyncWithResult,
              runCoroutineThreadsafe, Behaviour.callback, exec_runDoneCallbacks,
              World.waited, forwarded, Except.map, waited, set, reaction]

theorem settle_identity_none_coroutine (resultTimeout : Seconds) :
    invokeAndSettle react.handlers (.identity none resultTimeout)
        (Behaviour.returnsCoroutine coroutine).callback world =
      forwarded react (.value (.bool false)) noLoopAttached
        { world with inCallback := false } := by
  cases set : world.dispatcher.errorHandler <;>
    simp [invokeAndSettle, Wrapper.invoke, identityWrapper, Behaviour.callback,
      exec_runDoneCallbacks, forwarded, set]

theorem settle_identity_some_coroutine (loop : LoopId) (resultTimeout : Seconds) :
    invokeAndSettle react.handlers (.identity (some loop) resultTimeout)
        (Behaviour.returnsCoroutine coroutine).callback world =
      match coroutine.waitOutcome resultTimeout with
      | .ok value => (.ok (.value (.bool value.truth)), world.waited loop coroutine)
      | .error e =>
          forwarded react (.value (.bool false)) e (world.waited loop coroutine) := by
  cases waited : coroutine.waitOutcome resultTimeout with
  | ok value =>
      simp [invokeAndSettle, Wrapper.invoke, identityWrapper, runCoroutineThreadsafe,
        Behaviour.callback, exec_runDoneCallbacks, World.waited, Except.map, waited]
  | error e =>
      cases set : world.dispatcher.errorHandler <;>
        simp [invokeAndSettle, Wrapper.invoke, identityWrapper, runCoroutineThreadsafe,
          Behaviour.callback, exec_runDoneCallbacks, World.waited, forwarded, Except.map,
          waited, set]

end Settle

end ObscuraProto
