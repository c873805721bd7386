import Mathlib.Algebra.Order.Ring.Rat
import Mathlib.Tactic.Common
import ObscuraProto.Library.Transition
import ObscuraProto.Python.Value

/-!
# Awaiting a `CppPayloadFuture`

Several calls of `_await_cpp_future` share one future.  Each call has a worker
running `_fetch` on a pool thread, an asyncio future the worker publishes to, and
a caller suspended on that future.  Every step of a worker, the loop, a caller or
the clock is one label; delays are gaps between labels.
-/

namespace ObscuraProto

open Transition

abbrev CallId := Nat

/-- `_CALLBACK_POLL_INTERVAL`. -/
def callbackPollInterval : Rat := 1 / 20

/-- What the native future is resolved with. -/
abbrev Reply := Except PyExc Payload

/-- How far the `_fetch` of a call has come. -/
inductive Worker where
  /-- Submitted, not picked up yet. -/
  | queued
  /-- About to call `ready()`, not before the end of a sleep. -/
  | polling (notBefore : Rat)
  /-- `ready()` was false: in front of the deadline check. -/
  | checking
  /-- `ready()` was true: in front of the single-use check. -/
  | consuming
  /-- Entered in the registry: about to call `get()`. -/
  | claimed
  | publishing (outcome : Reply)
  | finished
  deriving DecidableEq

/-- Where `_fetch` goes after a call of `ready()`. -/
def Worker.afterReady : Except PyExc Bool → Worker
  | .ok true => consuming
  | .ok false => checking
  | .error e => publishing (.error e)

/-- The asyncio future of a call. -/
inductive ResultFuture where
  | pending
  | cancelled
  | done (outcome : Reply)
  deriving DecidableEq

/-- What a future that is done raises when an outcome is set. -/
def invalidState : PyExc := .user "InvalidStateError" "invalid state"

/-- `_publish`: a cancelled future is left alone, and one that already has an outcome
refuses another. -/
def ResultFuture.publish (outcome : Reply) : ResultFuture → Except PyExc ResultFuture
  | .cancelled => .ok .cancelled
  | .pending => .ok (.done outcome)
  | .done _ => .error invalidState

/-- How a call ends for its caller. -/
inductive Ending where
  | returned (payload : Payload)
  | raised (e : PyExc)
  | cancelled
  deriving DecidableEq

structure Call where
  what : String
  timeout : Option Seconds
  deadline : Option Rat
  worker : Worker := .queued
  result : ResultFuture := .pending
  ending : Option Ending := none
  deriving DecidableEq

/-- A use of the native future on behalf of a call. -/
inductive Touch where
  | ready (call : CallId)
  | get (call : CallId)
  deriving DecidableEq

structure AwaitState where
  now : Rat := 0
  reply : Option Reply := none
  /-- `std::future::valid()`. -/
  valid : Bool := true
  /-- Membership in `_consumed_cpp_futures`. -/
  consumed : Bool := false
  touches : List Touch := []
  /-- `_publish` calls queued on the event loop. -/
  callbacks : List (CallId × Reply) := []
  calls : List Call := []
  deriving DecidableEq

def singleUse : PyExc :=
  .logicError "CppPayloadFuture is single-use: get() may only be called once"

/-- What `get()` raises on a future without shared state. -/
def noState : PyExc :=
  .runtimeError "std::future_error: No associated state"

namespace Call

def timedOut (call : Call) : PyExc :=
  let timeout := (call.timeout.map (·.text)).getD "None"
  .timeoutError s!"{call.what} timed out after {timeout}s"

/-- What the caller sees when the asyncio future is done.  Under a timeout every
`TimeoutError` is raised anew. -/
def endingOf (call : Call) : Reply → Ending
  | .ok payload => .returned payload
  | .error e =>
      if call.timeout.isSome && e.isTimeout then .raised call.timedOut else .raised e

/-- The caller leaves by expiry or cancellation; a pending asyncio future is
cancelled with it. -/
def abandon (call : Call) (ending : Ending) : Call :=
  { call with
    ending := some ending
    result := if call.result = .pending then .cancelled else call.result }

/-- `_publish` on the loop, where an exception changes nothing. -/
def publish (call : Call) (outcome : Reply) : Call :=
  match call.result.publish outcome with
  | .ok result => { call with result }
  | .error _ => call

theorem publish_eq (call : Call) (outcome : Reply) :
    call.publish outcome =
      if call.result = .pending then { call with result := .done outcome } else call := by
  obtain ⟨what, timeout, deadline, worker, result, ending⟩ := call
  cases result <;> rfl

end Call

/-- A step of one call. -/
inductive Action where
  | begin
  /-- `undefined` is what `ready()` does on a future without shared state. -/
  | poll (undefined : Except PyExc Bool)
  | check
  | claim
  | get
  | post
  | resume
  | expire
  | cancel
  deriving DecidableEq

inductive AwaitLabel where
  | start (what : String) (timeout : Option Seconds)
  | act (call : CallId) (action : Action)
  /-- The loop runs the next queued `_publish`. -/
  | publish
  | arrive (reply : Reply)
  | tick (elapsed : Rat)
  deriving DecidableEq

namespace AwaitState

/-- A new call of `_await_cpp_future`: a timeout that is not positive means none. -/
def newCall (state : AwaitState) (what : String) (timeout : Option Seconds) : Call :=
  let timeout := timeout.filter fun timeout => 0 < timeout.value
  { what, timeout, deadline := timeout.map fun timeout => state.now + timeout.value }

def ready (state : AwaitState) (undefined : Except PyExc Bool) : Except PyExc Bool :=
  if state.valid then .ok state.reply.isSome else undefined

def touch (state : AwaitState) (touch : Touch) : AwaitState :=
  { state with touches := state.touches ++ [touch] }

/-- One step of call `id`, whose current state is `call`. -/
def act (state : AwaitState) (id : CallId) (call : Call) : Action → Option (AwaitState × Call)
  | .begin =>
      match call.worker with
      | .queued => some (state, { call with worker := .polling state.now })
      | _ => none
  | .poll undefined =>
      match call.worker with
      | .polling notBefore =>
          if notBefore ≤ state.now then
            some (state.touch (.ready id),
              { call with worker := .afterReady (state.ready undefined) })
          else none
      | _ => none
  | .check =>
      match call.worker with
      | .checking =>
          match call.deadline with
          | none =>
              some (state, { call with worker := .polling (state.now + callbackPollInterval) })
          | some deadline =>
              if deadline - state.now ≤ 0 then
                some (state, { call with worker := .publishing (.error call.timedOut) })
              else
                let wake := state.now + min callbackPollInterval (deadline - state.now)
                some (state, { call with worker := .polling wake })
      | _ => none
  | .claim =>
      match call.worker with
      | .consuming =>
          if state.consumed then
            some (state, { call with worker := .publishing (.error singleUse) })
          else
            some ({ state with consumed := true }, { call with worker := .claimed })
      | _ => none
  | .get =>
      match call.worker with
      | .claimed =>
          if state.valid then
            match state.reply with
            | some reply =>
                some ({ state.touch (.get id) with valid := false },
                  { call with worker := .publishing reply })
            | none => none
          else
            some (state.touch (.get id), { call with worker := .publishing (.error noState) })
      | _ => none
  | .post =>
      match call.worker with
      | .publishing outcome =>
          some ({ state with callbacks := state.callbacks ++ [(id, outcome)] },
            { call with worker := .finished })
      | _ => none
  | .resume =>
      match call.ending, call.result with
      | none, .done outcome => some (state, { call with ending := some (call.endingOf outcome) })
      | _, _ => none
  | .expire =>
      match call.ending, call.deadline with
      | none, some deadline =>
          if deadline ≤ state.now then some (state, call.abandon (.raised call.timedOut))
          else none
      | _, _ => none
  | .cancel =>
      match call.ending with
      | none => some (state, call.abandon .cancelled)
      | some _ => none

def step (state : AwaitState) : AwaitLabel → Option AwaitState
  | .start what timeout =>
      some { state with calls := state.calls ++ [state.newCall what timeout] }
  | .act id action =>
      match state.calls[id]? with
      | some call =>
          match state.act id call action with
          | some (next, call) => some { next with calls := state.calls.set id call }
          | none => none
      | none => none
  | .publish =>
      match state.callbacks with
      | (id, outcome) :: callbacks =>
          some { state with callbacks, calls := state.calls.modify id (·.publish outcome) }
      | [] => none
  | .arrive reply =>
      match state.reply with
      | none => some { state with reply := some reply }
      | some _ => none
  | .tick elapsed => if 0 < elapsed then some { state with now := state.now + elapsed } else none

end AwaitState

/-- Calls of `_await_cpp_future` on one fresh `CppPayloadFuture`. -/
def awaitFuture : System AwaitState AwaitLabel where
  initial := {}
  step := AwaitState.step

/-! ## What a step can do -/

/-- The outcomes of a step of call `id`. -/
inductive Acts (state : AwaitState) (id : CallId) (call : Call) :
    Action → AwaitState → Call → Prop
  | begin (queued : call.worker = .queued) :
      Acts state id call .begin state { call with worker := .polling state.now }
  | pollReady {undefined : Except PyExc Bool} {notBefore : Rat}
      (polling : call.worker = .polling notBefore)
      (answer : state.ready undefined = .ok true) :
      Acts state id call (.poll undefined) (state.touch (.ready id))
        { call with worker := .consuming }
  | pollPending {undefined : Except PyExc Bool} {notBefore : Rat}
      (polling : call.worker = .polling notBefore)
      (answer : state.ready undefined = .ok false) :
      Acts state id call (.poll undefined) (state.touch (.ready id))
        { call with worker := .checking }
  | pollFails {undefined : Except PyExc Bool} {notBefore : Rat} {e : PyExc}
      (polling : call.worker = .polling notBefore)
      (answer : state.ready undefined = .error e) :
      Acts state id call (.poll undefined) (state.touch (.ready id))
        { call with worker := .publishing (.error e) }
  | sleep {wake : Rat} (checking : call.worker = .checking)
      (early : ∀ deadline, call.deadline = some deadline → state.now < deadline) :
      Acts state id call .check state { call with worker := .polling wake }
  | giveUp {deadline : Rat} (checking : call.worker = .checking)
      (limited : call.deadline = some deadline) (late : deadline ≤ state.now) :
      Acts state id call .check state { call with worker := .publishing (.error call.timedOut) }
  | claim (consuming : call.worker = .consuming) (unused : state.consumed = false) :
      Acts state id call .claim { state with consumed := true } { call with worker := .claimed }
  | refuse (consuming : call.worker = .consuming) (used : state.consumed = true) :
      Acts state id call .claim state { call with worker := .publishing (.error singleUse) }
  | get {reply : Reply} (claimed : call.worker = .claimed) (valid : state.valid = true)
      (arrived : state.reply = some reply) :
      Acts state id call .get { state.touch (.get id) with valid := false }
        { call with worker := .publishing reply }
  | getInvalid (claimed : call.worker = .claimed) (invalid : state.valid = false) :
      Acts state id call .get (state.touch (.get id))
        { call with worker := .publishing (.error noState) }
  | post {outcome : Reply} (publishing : call.worker = .publishing outcome) :
      Acts state id call .post { state with callbacks := state.callbacks ++ [(id, outcome)] }
        { call with worker := .finished }
  | resume {outcome : Reply} (waiting : call.ending = none)
      (done : call.result = .done outcome) :
      Acts state id call .resume state { call with ending := some (call.endingOf outcome) }
  | expire {deadline : Rat} (waiting : call.ending = none)
      (limited : call.deadline = some deadline) (late : deadline ≤ state.now) :
      Acts state id call .expire state (call.abandon (.raised call.timedOut))
  | cancel (waiting : call.ending = none) :
      Acts state id call .cancel state (call.abandon .cancelled)

theorem acts_of_act {state next : AwaitState} {id : CallId} {call after : Call}
    {action : Action} (acted : state.act id call action = some (next, after)) :
    Acts state id call action next after := by
  cases action with
  | begin =>
      simp only [AwaitState.act] at acted
      split at acted <;> cases acted
      exact .begin (by assumption)
  | poll undefined =>
      simp only [AwaitState.act] at acted
      split at acted
      · next notBefore polling =>
          split at acted
          · cases answer : state.ready undefined with
            | error e =>
                rw [answer] at acted
                cases acted
                exact .pollFails polling answer
            | ok ready =>
                rw [answer] at acted
                cases ready <;> cases acted
                · exact .pollPending polling answer
                · exact .pollReady polling answer
          · cases acted
      · cases acted
  | check =>
      simp only [AwaitState.act] at acted
      split at acted
      · next checking =>
          split at acted
          · next unlimited =>
              cases acted
              exact .sleep checking (by simp [unlimited])
          · next deadline limited =>
              split at acted
              · next late =>
                  cases acted
                  exact .giveUp checking limited (sub_nonpos.mp late)
              · next early =>
                  cases acted
                  rw [sub_nonpos, not_le] at early
                  exact .sleep checking (by simpa [limited] using early)
      · cases acted
  | claim =>
      simp only [AwaitState.act] at acted
      split at acted
      · next consuming =>
          split at acted
          · next used => cases acted; exact .refuse consuming used
          · next unused => cases acted; exact .claim consuming (by simpa using unused)
      · cases acted
  | get =>
      simp only [AwaitState.act] at acted
      split at acted
      · next claimed =>
          split at acted
          · next valid =>
              split at acted
              · next reply arrived => cases acted; exact .get claimed valid arrived
              · cases acted
          · next invalid => cases acted; exact .getInvalid claimed (by simpa using invalid)
      · cases acted
  | post =>
      simp only [AwaitState.act] at acted
      split at acted <;> cases acted
      exact .post (by assumption)
  | resume =>
      simp only [AwaitState.act] at acted
      split at acted <;> cases acted
      exact .resume (by assumption) (by assumption)
  | expire =>
      simp only [AwaitState.act] at acted
      split at acted
      · next waiting limited =>
          split at acted
          · next late => cases acted; exact .expire waiting limited late
          · cases acted
      · cases acted
  | cancel =>
      simp only [AwaitState.act] at acted
      split at acted <;> cases acted
      exact .cancel (by assumption)

/-- The outcomes of a step of the whole system. -/
inductive Steps (state : AwaitState) : AwaitLabel → AwaitState → Prop
  | start (what : String) (timeout : Option Seconds) :
      Steps state (.start what timeout)
        { state with calls := state.calls ++ [state.newCall what timeout] }
  | act {id : CallId} {action : Action} {call after : Call} {next : AwaitState}
      (found : state.calls[id]? = some call) (acts : Acts state id call action next after) :
      Steps state (.act id action) { next with calls := state.calls.set id after }
  | publish {id : CallId} {outcome : Reply} {callbacks : List (CallId × Reply)}
      (queued : state.callbacks = (id, outcome) :: callbacks) :
      Steps state .publish
        { state with callbacks, calls := state.calls.modify id (·.publish outcome) }
  | arrive {reply : Reply} (waiting : state.reply = none) :
      Steps state (.arrive reply) { state with reply := some reply }
  | tick {elapsed : Rat} (positive : 0 < elapsed) :
      Steps state (.tick elapsed) { state with now := state.now + elapsed }

theorem steps_of_step {state next : AwaitState} {label : AwaitLabel}
    (stepped : awaitFuture.step state label = some next) : Steps state label next := by
  cases label with
  | start what timeout => cases stepped; exact .start what timeout
  | act id action =>
      simp only [awaitFuture, AwaitState.step] at stepped
      split at stepped
      · next found =>
          split at stepped
          · next acted => cases stepped; exact .act found (acts_of_act acted)
          · cases stepped
      · cases stepped
  | publish =>
      simp only [awaitFuture, AwaitState.step] at stepped
      split at stepped <;> cases stepped
      exact .publish (by assumption)
  | arrive reply =>
      simp only [awaitFuture, AwaitState.step] at stepped
      split at stepped <;> cases stepped
      exact .arrive (by assumption)
  | tick elapsed =>
      simp only [awaitFuture, AwaitState.step] at stepped
      split at stepped <;> cases stepped
      exact .tick (by assumption)

end ObscuraProto
