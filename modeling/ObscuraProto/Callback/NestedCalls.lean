import ObscuraProto.Callback.Reentrancy

/-!
# Nested callbacks run on the thread

A program of user code may call wrapped callbacks whose functions and error handlers
are programs again.  The wrappers run such a program as the steps of one thread do,
so what holds at every step of a thread holds inside nested callbacks.
-/

namespace ObscuraProto

open Transition

/-- Run code and look at how it ended. -/
def attempt {α : Type} (code : Py α) : Py (Except PyExc α) :=
  tryCatch (Except.ok <$> code) fun e => pure (.error e)

@[simp] theorem exec_attempt {α : Type} (code : Py α) (world : World) :
    (attempt code).exec world = (.ok (code.exec world).1, (code.exec world).2) := by
  rw [attempt, Py.exec_tryCatch, Py.exec_map]
  rcases code.exec world with ⟨_ | _, _⟩ <;> rfl

/-- Call an error handler: what it returns is dropped. -/
def report (code : Py Returned) : Py PUnit := do
  let _ ← code
  return ⟨⟩

theorem exec_report (code : Py Returned) (world : World) :
    (report code).exec world =
      match code.exec world with
      | (result, after) => (result.map fun _ => ⟨⟩, after) := by
  rw [report, Py.exec_bind]
  rcases code.exec world with ⟨_ | _, _⟩ <;> rfl

/-- User code: what it does next depends on how the calls before ended. -/
inductive Script where
  | done (behaviour : Behaviour)
  | setErrorHandler (handler : Option HandlerId) (next : Script)
  | blocking (call : BlockingCall) (native : Except PyExc PyValue)
      (next : Except PyExc PyValue → Script)
  | invoke (wrapper : Wrapper) (callback : Script) (onError : HandlerId → PyExc → Script)
      (next : Except PyExc Returned → Script)

namespace Script

def code : Script → Py Returned
  | done behaviour => behaviour.callback
  | setErrorHandler handler next => do
      modify fun world => { world with dispatcher := world.dispatcher.setErrorHandler handler }
      next.code
  | blocking call native next => do
      let result ← attempt (call.perform fun _ => Py.ofExcept native)
      (next result).code
  | invoke wrapper callback onError next => do
      let result ← attempt
        (wrapper.invoke (fun handler e => report (onError handler e).code) callback.code)
      (next result).code

end Script

/-- Every outcome of a function is that of a behaviour. -/
def Behaviour.ofResult : Except PyExc Returned → Behaviour
  | .ok (.value value) => .returns value
  | .ok (.coroutine coroutine) => .returnsCoroutine coroutine
  | .error e => .raises e

/-- Code that the thread can run as its innermost user code: it ends with the same
callbacks running as before. -/
def RunsOnThread {α : Type} (code : Py α) : Prop :=
  ∀ state : ThreadState, state.runsUserCode = true →
    ∃ more, callbackThread.Along System.Free state
      { state with world := (code.exec state.world).2, ended := state.ended ++ more }

/-- A wrapped callback that the thread can run: its outcome is recorded last. -/
def EndsOnThread (code : Py Returned) : Prop :=
  ∀ state : ThreadState, state.runsUserCode = true →
    ∃ more, callbackThread.Along System.Free state
      { state with
        world := (code.exec state.world).2
        ended := state.ended ++ more ++ [(code.exec state.world).1] }

/-- One step of the thread. -/
theorem ThreadState.along_step {state next : ThreadState} (label : ThreadLabel)
    (taken : state.step label = some next) : callbackThread.Along System.Free state next :=
  .step .refl trivial taken

/-! ## Error handlers -/

section Handlers

variable {handlers : HandlerId → PyExc → Py PUnit}
  (handlersRun : ∀ handler e, RunsOnThread (handlers handler e))
  (wrapper : Wrapper) (rest : List Frame) (e : PyExc)

theorem exec_forwardOrRaise_none {world : World} (absorbed : Returned)
    (unset : world.dispatcher.errorHandler = none) :
    (forwardOrRaise handlers absorbed e).exec world = (.error e, world) := by
  simp [forwardOrRaise, unset]

theorem exec_forwardOrRaise_some {world : World} {handler : HandlerId} (absorbed : Returned)
    (set : world.dispatcher.errorHandler = some handler) :
    (forwardOrRaise handlers absorbed e).exec world =
      match (handlers handler e).exec
          { world with reports := world.reports ++ [(handler, e)] } with
      | (result, after) => (result.map fun _ => absorbed, after) := by
  simp only [forwardOrRaise, callErrorHandler, Py.exec_bind, Py.exec_get, set, Py.exec_modify]
  rcases (handlers handler e).exec
    { world with reports := world.reports ++ [(handler, e)] } with ⟨_ | _, _⟩ <;> rfl

include handlersRun

/-- The outer `except` clause, up to the end of the wrapper. -/
theorem caught_outer_ends (state : ThreadState) :
    ∃ more, callbackThread.Along System.Free (state.caught wrapper (.forwarding false) rest e)
      { world :=
          { ((forwardOrRaise handlers wrapper.absorbed e).exec state.world).2 with
            inCallback := false }
        frames := rest
        ended := state.ended ++ more ++
          [((forwardOrRaise handlers wrapper.absorbed e).exec state.world).1] } := by
  rw [ThreadState.caught]
  cases set : state.world.dispatcher.errorHandler with
  | none =>
      refine ⟨[], ?_⟩
      rw [exec_forwardOrRaise_none e wrapper.absorbed set, List.append_nil]
      exact .refl
  | some handler =>
      rw [exec_forwardOrRaise_some e wrapper.absorbed set]
      obtain ⟨more, ran⟩ := handlersRun handler e
        { state with
          world := { state.world with reports := state.world.reports ++ [(handler, e)] }
          frames := ⟨wrapper, .forwarding false⟩ :: rest } rfl
      refine ⟨more, ran.take (.reported ((handlers handler e).exec
        { state.world with reports := state.world.reports ++ [(handler, e)] }).1) trivial ?_⟩
      rcases (handlers handler e).exec
        { state.world with reports := state.world.reports ++ [(handler, e)] } with ⟨_ | _, _⟩ <;>
        rfl

/-- The inner `except` clause: what its error handler raises meets the outer one. -/
theorem caught_inner_ends (state : ThreadState) :
    ∃ more, callbackThread.Along System.Free (state.caught wrapper (.forwarding true) rest e)
      (let code := tryCatch (forwardOrRaise handlers wrapper.absorbed e)
        (forwardOrRaise handlers wrapper.absorbed)
      { world := { (code.exec state.world).2 with inCallback := false }
        frames := rest
        ended := state.ended ++ more ++ [(code.exec state.world).1] }) := by
  rw [ThreadState.caught]
  simp only [Py.exec_tryCatch]
  cases set : state.world.dispatcher.errorHandler with
  | none =>
      refine ⟨[], ?_⟩
      simp only [exec_forwardOrRaise_none e wrapper.absorbed set, List.append_nil]
      exact .refl
  | some handler =>
      rw [exec_forwardOrRaise_some e wrapper.absorbed set]
      let reported : World := { state.world with
        reports := state.world.reports ++ [(handler, e)] }
      obtain ⟨more, ran⟩ := handlersRun handler e
        { state with world := reported, frames := ⟨wrapper, .forwarding true⟩ :: rest } rfl
      change callbackThread.Along _ _ { state with
        world := ((handlers handler e).exec reported).2
        frames := ⟨wrapper, .forwarding true⟩ :: rest
        ended := state.ended ++ more } at ran
      rcases outcome : (handlers handler e).exec reported with ⟨raised | done, after⟩
      · rw [outcome] at ran
        have again := ran.take (.reported (.error raised)) trivial rfl
        obtain ⟨others, last⟩ := caught_outer_ends handlersRun wrapper rest raised
          { state with
            world := after
            frames := ⟨wrapper, .forwarding true⟩ :: rest
            ended := state.ended ++ more }
        refine ⟨more ++ others, ?_⟩
        have whole := again.trans last
        rw [List.append_assoc state.ended] at whole
        exact whole
      · rw [outcome] at ran
        exact ⟨more, ran.take (.reported (.ok done)) trivial rfl⟩

end Handlers

/-! ## The wrappers -/

section Wrappers

variable {handlers : HandlerId → PyExc → Py PUnit}
  (handlersRun : ∀ handler e, RunsOnThread (handlers handler e))

/-- The world when a wrapper is left. -/
def World.leftCallback (world : World) : World := { world with inCallback := false }

/-- What is left of a wrapper when its function is over. -/
def Wrapper.conclude (handlers : HandlerId → PyExc → Py PUnit) (wrapper : Wrapper) :
    Behaviour → Py Returned
  | .returns value => return .value (wrapper.passed value)
  | .raises e => forwardOrRaise handlers wrapper.absorbed e
  | .returnsCoroutine coroutine =>
      match wrapper with
      | .sync => return .coroutine coroutine
      | .fireAndForget loop => do
          runCoroutineThreadsafe coroutine loop
          modify fun world =>
            { world with doneCallbacks := world.doneCallbacks ++
              (world.dispatcher.errorHandler.map fun handler => (coroutine, handler)).toList }
          return .value .none
      | .withResult loop resultTimeout => do
          runCoroutineThreadsafe coroutine loop
          match ← attempt (waitFutureWithPolling coroutine resultTimeout) with
          | .ok value => return .value value
          | .error e =>
              tryCatch (forwardOrRaise handlers (.value .none) e)
                (forwardOrRaise handlers (.value .none))
      | .identity none _ => forwardOrRaise handlers (.value (.bool false)) noLoopAttached
      | .identity (some loop) resultTimeout => do
          runCoroutineThreadsafe coroutine loop
          match ← attempt (waitFutureWithPolling coroutine resultTimeout) with
          | .ok value => return .value (.bool value.truth)
          | .error e => forwardOrRaise handlers (.value (.bool false)) e

/-- Every wrapper sets the flag, calls its function and concludes. -/
theorem exec_invoke (wrapper : Wrapper) (fn : Py Returned) (world : World) :
    (wrapper.invoke handlers fn).exec world =
      match fn.exec { world with inCallback := true } with
      | (result, after) =>
          match (wrapper.conclude handlers (.ofResult result)).exec after with
          | (outcome, last) => (outcome, last.leftCallback) := by
  rcases ended : fn.exec { world with inCallback := true } with ⟨e | value | coroutine, after⟩
  · cases wrapper <;>
      simp [Wrapper.invoke, wrapSync, wrapAsyncFireAndForget, wrapAsyncWithResult,
        identityWrapper, ended, Behaviour.ofResult, Wrapper.conclude, Wrapper.absorbed,
        World.leftCallback]
  · cases wrapper <;>
      simp [Wrapper.invoke, wrapSync, wrapAsyncFireAndForget, wrapAsyncWithResult,
        identityWrapper, ended, Behaviour.ofResult, Wrapper.conclude, Wrapper.passed,
        World.leftCallback]
  · cases wrapper with
    | sync =>
        simp [Wrapper.invoke, wrapSync, ended, Behaviour.ofResult, Wrapper.conclude,
          World.leftCallback]
    | fireAndForget loop =>
        cases set : after.dispatcher.errorHandler <;>
          simp [Wrapper.invoke, wrapAsyncFireAndForget, runCoroutineThreadsafe, ended, set,
            Behaviour.ofResult, Wrapper.conclude, World.leftCallback, Except.map]
    | withResult loop resultTimeout =>
        cases waited : coroutine.waitOutcome resultTimeout <;>
          simp [Wrapper.invoke, wrapAsyncWithResult, runCoroutineThreadsafe, ended, waited,
            Behaviour.ofResult, Wrapper.conclude, World.leftCallback, Except.map]
    | identity loop resultTimeout =>
        cases loop with
        | none =>
            simp [Wrapper.invoke, identityWrapper, ended, Behaviour.ofResult, Wrapper.conclude,
              World.leftCallback]
        | some loop =>
            cases waited : coroutine.waitOutcome resultTimeout <;>
              simp [Wrapper.invoke, identityWrapper, runCoroutineThreadsafe, ended, waited,
                Behaviour.ofResult, Wrapper.conclude, World.leftCallback, Except.map]

/-- The world after a wait. -/
def World.afterWait (world : World) (coroutine : Coroutine) : World :=
  { world with abandoned := world.abandoned ++ if coroutine.inTime then [] else [coroutine] }

section Collect

variable {state : ThreadState} {wrapper : Wrapper} {rest : List Frame} {coroutine : Coroutine}
  {resultTimeout : Seconds}
  (shape : state.frames = ⟨wrapper, .waiting coroutine resultTimeout⟩ :: rest)

include shape

theorem collect_ok {value : PyValue} (waited : coroutine.waitOutcome resultTimeout = .ok value) :
    callbackThread.Along System.Free state
      ({ state with world := state.world.afterWait coroutine }.finish rest
        (.ok (.value (wrapper.passed value)))) := by
  apply ThreadState.along_step .collect
  simp only [ThreadState.step, shape, exec_waitFutureWithPolling, waited]
  rfl

theorem collect_error {e : PyExc} (waited : coroutine.waitOutcome resultTimeout = .error e) :
    callbackThread.Along System.Free state
      ({ state with world := state.world.afterWait coroutine }.caught wrapper
        (.forwarding (ThreadState.hasInnerExcept wrapper)) rest e) := by
  apply ThreadState.along_step .collect
  simp only [ThreadState.step, shape, exec_waitFutureWithPolling, waited]
  rfl

end Collect

/-- What is left of a wrapper when its wait is over. -/
def Wrapper.concludeWait (handlers : HandlerId → PyExc → Py PUnit) (wrapper : Wrapper) :
    Except PyExc PyValue → Py Returned
  | .ok value => return .value (wrapper.passed value)
  | .error e =>
      if ThreadState.hasInnerExcept wrapper then
        tryCatch (forwardOrRaise handlers wrapper.absorbed e)
          (forwardOrRaise handlers wrapper.absorbed)
      else forwardOrRaise handlers wrapper.absorbed e

/-- A wrapper that waits schedules the coroutine first and goes on after its wait. -/
theorem exec_conclude_of_waits {wrapper : Wrapper} {loop : LoopId} {resultTimeout : Seconds}
    (waits : wrapper = .withResult loop resultTimeout ∨
      wrapper = .identity (some loop) resultTimeout)
    (coroutine : Coroutine) (state : ThreadState) :
    (wrapper.conclude handlers (.returnsCoroutine coroutine)).exec state.world =
      (wrapper.concludeWait handlers (coroutine.waitOutcome resultTimeout)).exec
        ((state.schedule loop coroutine).world.afterWait coroutine) := by
  rcases waits with rfl | rfl <;>
    cases waited : coroutine.waitOutcome resultTimeout <;>
      simp [Wrapper.conclude, Wrapper.concludeWait, waited, ThreadState.schedule,
        World.afterWait, runCoroutineThreadsafe, ThreadState.hasInnerExcept, Wrapper.passed,
        Wrapper.absorbed]

include handlersRun

/-- From its wait a wrapper runs on the thread to its own end. -/
theorem waiting_ends (state : ThreadState) {wrapper : Wrapper} {rest : List Frame}
    {coroutine : Coroutine} {resultTimeout : Seconds}
    (shape : state.frames = ⟨wrapper, .waiting coroutine resultTimeout⟩ :: rest) :
    ∃ more, callbackThread.Along System.Free state
      (let code := wrapper.concludeWait handlers (coroutine.waitOutcome resultTimeout)
      { world := (code.exec (state.world.afterWait coroutine)).2.leftCallback
        frames := rest
        ended := state.ended ++ more ++
          [(code.exec (state.world.afterWait coroutine)).1] }) := by
  cases waited : coroutine.waitOutcome resultTimeout with
  | ok value =>
      use []
      rw [List.append_nil]
      exact collect_ok shape waited
  | error e =>
      have raised := collect_error shape waited
      simp only [Wrapper.concludeWait]
      cases inner : ThreadState.hasInnerExcept wrapper with
      | true =>
          rw [inner] at raised
          obtain ⟨more, ran⟩ := caught_inner_ends handlersRun wrapper rest e
            { state with world := state.world.afterWait coroutine }
          exact ⟨more, raised.trans ran⟩
      | false =>
          rw [inner] at raised
          obtain ⟨more, ran⟩ := caught_outer_ends handlersRun wrapper rest e
            { state with world := state.world.afterWait coroutine }
          exact ⟨more, raised.trans ran⟩

/-- From the end of its function a wrapper runs on the thread to its own end. -/
theorem leave_ends (state : ThreadState) {wrapper : Wrapper} {rest : List Frame}
    (shape : state.frames = ⟨wrapper, .callback⟩ :: rest) (behaviour : Behaviour) :
    ∃ more, callbackThread.Along System.Free state
      { world := ((wrapper.conclude handlers behaviour).exec state.world).2.leftCallback
        frames := rest
        ended := state.ended ++ more ++
          [((wrapper.conclude handlers behaviour).exec state.world).1] } := by
  have left : callbackThread.Along System.Free state (state.left wrapper rest behaviour) := by
    apply ThreadState.along_step (.leave behaviour)
    rw [ThreadState.step, shape]
  cases behaviour with
  | returns value =>
      refine ⟨[], ?_⟩
      rw [List.append_nil]
      exact left
  | raises e =>
      obtain ⟨more, ran⟩ := caught_outer_ends handlersRun wrapper rest e state
      exact ⟨more, left.trans ran⟩
  | returnsCoroutine coroutine =>
      cases wrapper with
      | sync =>
          refine ⟨[], ?_⟩
          rw [List.append_nil]
          exact left
      | fireAndForget loop =>
          refine ⟨[], ?_⟩
          rw [List.append_nil]
          have watched : state.left (.fireAndForget loop) rest (.returnsCoroutine coroutine) =
              { world := (((Wrapper.fireAndForget loop).conclude handlers
                  (.returnsCoroutine coroutine)).exec state.world).2.leftCallback
                frames := rest
                ended := state.ended ++ [.ok (.value .none)] } := by
            rw [ThreadState.left, ThreadState.watch]
            cases set : state.world.dispatcher.errorHandler <;>
              simp [ThreadState.schedule, runCoroutineThreadsafe, set, Wrapper.conclude,
                ThreadState.finish, ThreadState.setFlag, setCallbackThreadFlag,
                World.leftCallback]
          rw [watched] at left
          exact left
      | withResult loop resultTimeout =>
          obtain ⟨more, ran⟩ := waiting_ends handlersRun
            (state.left (.withResult loop resultTimeout) rest (.returnsCoroutine coroutine)) rfl
          use more
          rw [exec_conclude_of_waits (.inl rfl)]
          exact left.trans ran
      | identity loop resultTimeout =>
          cases loop with
          | none =>
              obtain ⟨more, ran⟩ := caught_outer_ends handlersRun
                (.identity none resultTimeout) rest noLoopAttached state
              exact ⟨more, left.trans ran⟩
          | some loop =>
              obtain ⟨more, ran⟩ := waiting_ends handlersRun
                (state.left (.identity (some loop) resultTimeout) rest
                  (.returnsCoroutine coroutine)) rfl
              use more
              rw [exec_conclude_of_waits (.inr rfl)]
              exact left.trans ran

/-- A wrapped callback runs on the thread when its function does. -/
theorem endsOnThread_invoke (wrapper : Wrapper) {fn : Py Returned} (fnRuns : RunsOnThread fn) :
    EndsOnThread (wrapper.invoke handlers fn) := by
  intro state free
  let entered : ThreadState :=
    { state.setFlag true with frames := ⟨wrapper, .callback⟩ :: state.frames }
  have enter : callbackThread.Along System.Free state entered := by
    apply ThreadState.along_step (.enter wrapper)
    rw [ThreadState.step, if_pos free]
  obtain ⟨before, ran⟩ := fnRuns entered rfl
  obtain ⟨more, concluded⟩ := leave_ends handlersRun
    { entered with world := (fn.exec entered.world).2, ended := entered.ended ++ before } rfl
    (.ofResult (fn.exec entered.world).1)
  rw [exec_invoke]
  refine ⟨before ++ more, ?_⟩
  have whole := (enter.trans ran).trans concluded
  rw [← List.append_assoc]
  exact whole

end Wrappers

/-! ## Programs -/

theorem RunsOnThread.of_unchanged {α : Type} {code : Py α}
    (keeps : ∀ world, (code.exec world).2 = world) : RunsOnThread code := by
  intro state _
  refine ⟨[], ?_⟩
  rw [keeps, List.append_nil]
  exact .refl

/-- Every program runs on the thread, whatever wrapped callbacks it calls. -/
theorem Script.runsOnThread (script : Script) : RunsOnThread script.code := by
  induction script with
  | done behaviour =>
      apply RunsOnThread.of_unchanged
      intro world
      cases behaviour <;> rfl
  | setErrorHandler handler next ih =>
      intro state free
      let configured : ThreadState := { state with world :=
        { state.world with dispatcher := state.world.dispatcher.setErrorHandler handler } }
      have sets : callbackThread.Along System.Free state configured :=
        ThreadState.along_step (.setErrorHandler handler) rfl
      obtain ⟨more, ran⟩ := ih configured free
      refine ⟨more, ?_⟩
      rw [Script.code, Py.exec_bind, Py.exec_modify]
      exact sets.trans ran
  | blocking call native next ih =>
      intro state free
      have keeps : ((call.perform fun _ => Py.ofExcept native).exec state.world).2 =
          state.world := by
        rw [BlockingCall.exec_perform]
        split
        · rfl
        · rw [Py.exec_ofExcept]
      rw [Script.code, Py.exec_bind, exec_attempt, keeps]
      exact ih _ state free
  | invoke wrapper callback onError next callbackRuns onErrorRuns nextRuns =>
      intro state free
      have handlersRun (handler : HandlerId) (e : PyExc) :
          RunsOnThread (report (onError handler e).code) := by
        intro inner innerFree
        rw [exec_report]
        exact onErrorRuns handler e inner innerFree
      obtain ⟨before, called⟩ := endsOnThread_invoke handlersRun wrapper callbackRuns state free
      rcases invoked : (wrapper.invoke (fun handler e => report (onError handler e).code)
        callback.code).exec state.world with ⟨result, world⟩
      rw [invoked] at called
      let returned : ThreadState :=
        { state with world, ended := state.ended ++ before ++ [result] }
      obtain ⟨after, ran⟩ := nextRuns result returned free
      refine ⟨before ++ [result] ++ after, ?_⟩
      rw [Script.code, Py.exec_bind, exec_attempt, invoked]
      have whole := System.Along.trans called ran
      simp only [returned, List.append_assoc] at whole ⊢
      exact whole

end ObscuraProto
