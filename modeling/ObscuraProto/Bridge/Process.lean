import Mathlib.Data.Finset.Basic
import ObscuraProto.Bridge.RequestPool
import ObscuraProto.Bridge.SettlesOnce

/-!
# The requests of a process

Every native request has a `CppPayloadFuture` of its own, while all of them share the
registry of consumed futures, the request executor and the event loop.  The registry is
a weak set of objects: it compares them by address, and an entry vanishes with its
object, whose address may be given to a new one.
-/

namespace ObscuraProto

open Transition Processes

abbrev FutureId := Nat

abbrev Address := Nat

/-- A `CppPayloadFuture` with the calls of `_await_cpp_future` on it. -/
structure FutureObject where
  address : Address
  /-- Not collected yet. -/
  live : Bool := true
  requests : SettlementState
  deriving DecidableEq

/-- A `_fetch` of the process. -/
abbrev FetchId := FutureId × CallId

structure ProcessState where
  now : Rat := 0
  objects : List FutureObject := []
  /-- `_consumed_cpp_futures`. -/
  consumed : Finset Address := ∅
  /-- The queue of the request executor. -/
  queue : List FetchId := []
  /-- What the workers of the request executor run. -/
  running : List FetchId := []
  /-- The futures of the `_publish` calls queued on the event loop, in order. -/
  ready : List FutureId := []
  deriving DecidableEq

inductive ProcessLabel where
  /-- A native request returns a new future. -/
  | create (address : Address)
  /-- The last reference to a future is gone. -/
  | collect (future : FutureId)
  /-- A call of `_await_cpp_future`. -/
  | call (future : FutureId) (what : String) (timeout : Option Seconds)
  | submit (fetch : FetchId) (raises : Bool)
  | act (fetch : FetchId) (action : Action)
  /-- The loop runs the next queued `_publish`. -/
  | publish
  | arrive (future : FutureId) (reply : Reply)
  | tick (elapsed : Rat)

/-- Nothing of the call refers to the future any more: `_fetch` has ended, and so has
the coroutine. -/
def Call.Idle (call : Call) : Prop :=
  call.worker = .finished ∧ call.ending ≠ none

instance : DecidablePred Call.Idle :=
  fun _ => inferInstanceAs (Decidable (_ ∧ _))

namespace FutureObject

/-- The calls on the future, which see the registry as it is. -/
def seeing (object : FutureObject) (consumed : Finset Address) : SettlementState :=
  { object.requests with
    await := { object.requests.await with consumed := decide (object.address ∈ consumed) } }

/-- The clock goes on for the calls on the future. -/
def tick (elapsed : Rat) (object : FutureObject) : FutureObject :=
  let await := object.requests.await
  let later := { await with now := await.now + elapsed }
  { object with requests := object.requests.record (.tick elapsed) later }

def Unreferenced (object : FutureObject) : Prop :=
  ∀ call ∈ object.requests.await.calls, call.Idle

instance : DecidablePred Unreferenced :=
  fun object => inferInstanceAs (Decidable (∀ call ∈ object.requests.await.calls, _))

end FutureObject

namespace ProcessState

variable (state : ProcessState)

/-- The address belongs to an object. -/
def Occupied (address : Address) : Prop :=
  ∃ object ∈ state.objects, object.live = true ∧ object.address = address

instance : DecidablePred state.Occupied :=
  fun _ => inferInstanceAs (Decidable (∃ object ∈ state.objects, _))

/-- A step of the calls on one future that does not read the registry. -/
def advance (future : FutureId) (label : SettlementLabel) : Option ProcessState :=
  match state.objects[future]? with
  | some object =>
      (object.requests.step label).map fun requests =>
        { state with objects := state.objects.set future { object with requests } }
  | none => none

/-- The `_fetch` was handed to the request executor. -/
def pooled (fetch : FetchId) : Bool :=
  state.objects[fetch.1]?.any fun object => object.requests.submissions[fetch.2]? == some .pool

/-- A worker of the request executor takes a `_fetch` from the head of the queue; a
thread of its own begins at any time. -/
def takeUp (fetch : FetchId) : Option ProcessState :=
  if state.pooled fetch then
    match state.queue with
    | head :: queue =>
        if head = fetch ∧ state.running.length < requestExecutorMaxWorkers then
          some { state with queue, running := state.running ++ [fetch] }
        else none
    | [] => none
  else some state

/-- What a step of a `_fetch` does to the executor and the event loop. -/
def schedule (fetch : FetchId) : Action → Option ProcessState
  | .begin => state.takeUp fetch
  | .post =>
      some { state with
        running := state.running.erase fetch
        ready := state.ready ++ [fetch.1] }
  | _ => some state

def step : ProcessLabel → Option ProcessState
  | .create address =>
      if state.Occupied address then none
      else
        some { state with objects :=
          state.objects ++ [{ address, requests := { await := { now := state.now } } }] }
  | .collect future =>
      match state.objects[future]? with
      | some object =>
          if object.live ∧ object.Unreferenced then
            some { state with
              objects := state.objects.set future { object with live := false }
              consumed := state.consumed.erase object.address }
          else none
      | none => none
  | .call future what timeout =>
      if state.objects[future]?.any (·.live) then
        state.advance future (.await (.start what timeout))
      else none
  | .submit fetch raises =>
      (state.advance fetch.1 (.submit fetch.2 raises)).map fun next =>
        if raises then next else { next with queue := next.queue ++ [fetch] }
  | .act fetch action =>
      match state.objects[fetch.1]? with
      | some object =>
          match (object.seeing state.consumed).step (.await (.act fetch.2 action)),
              state.schedule fetch action with
          | some requests, some next =>
              some { next with
                objects := state.objects.set fetch.1 { object with requests }
                consumed :=
                  if requests.await.consumed then insert object.address state.consumed
                  else state.consumed }
          | _, _ => none
      | none => none
  | .publish =>
      match state.ready with
      | future :: ready =>
          (state.advance future (.await .publish)).map fun next => { next with ready }
      | [] => none
  | .arrive future reply => state.advance future (.await (.arrive reply))
  | .tick elapsed =>
      if 0 < elapsed then
        some { state with
          now := state.now + elapsed
          objects := state.objects.map (·.tick elapsed) }
      else none

end ProcessState

/-- The requests of a process that imports the package. -/
def requestProcess : System ProcessState ProcessLabel where
  initial := {}
  step := ProcessState.step

/-! ## What a step can do -/

/-- The outcomes of a step. -/
inductive ProcessSteps (state : ProcessState) : ProcessLabel → ProcessState → Prop
  | create {address : Address} (free : ¬ state.Occupied address) :
      ProcessSteps state (.create address)
        { state with objects :=
          state.objects ++ [{ address, requests := { await := { now := state.now } } }] }
  | collect {future : FutureId} {object : FutureObject}
      (found : state.objects[future]? = some object) (live : object.live = true)
      (unreferenced : object.Unreferenced) :
      ProcessSteps state (.collect future)
        { state with
          objects := state.objects.set future { object with live := false }
          consumed := state.consumed.erase object.address }
  | call {future : FutureId} {object : FutureObject} {requests : SettlementState} {what : String}
      {timeout : Option Seconds} (found : state.objects[future]? = some object)
      (live : object.live = true)
      (taken : settlement.step object.requests (.await (.start what timeout)) = some requests) :
      ProcessSteps state (.call future what timeout)
        { state with objects := state.objects.set future { object with requests } }
  | submit {fetch : FetchId} {object : FutureObject} {requests : SettlementState} {raises : Bool}
      (found : state.objects[fetch.1]? = some object)
      (taken : settlement.step object.requests (.submit fetch.2 raises) = some requests) :
      ProcessSteps state (.submit fetch raises)
        { state with
          objects := state.objects.set fetch.1 { object with requests }
          queue := if raises then state.queue else state.queue ++ [fetch] }
  | act {fetch : FetchId} {action : Action} {object : FutureObject} {requests : SettlementState}
      {next : ProcessState} (found : state.objects[fetch.1]? = some object)
      (taken : settlement.step (object.seeing state.consumed) (.await (.act fetch.2 action)) =
        some requests)
      (scheduled : state.schedule fetch action = some next) :
      ProcessSteps state (.act fetch action)
        { next with
          objects := state.objects.set fetch.1 { object with requests }
          consumed :=
            if requests.await.consumed then insert object.address state.consumed
            else state.consumed }
  | publish {future : FutureId} {ready : List FutureId} {object : FutureObject}
      {requests : SettlementState} (queued : state.ready = future :: ready)
      (found : state.objects[future]? = some object)
      (taken : settlement.step object.requests (.await .publish) = some requests) :
      ProcessSteps state .publish
        { state with
          objects := state.objects.set future { object with requests }
          ready }
  | arrive {future : FutureId} {reply : Reply} {object : FutureObject}
      {requests : SettlementState} (found : state.objects[future]? = some object)
      (taken : settlement.step object.requests (.await (.arrive reply)) = some requests) :
      ProcessSteps state (.arrive future reply)
        { state with objects := state.objects.set future { object with requests } }
  | tick {elapsed : Rat} (positive : 0 < elapsed) :
      ProcessSteps state (.tick elapsed)
        { state with
          now := state.now + elapsed
          objects := state.objects.map (·.tick elapsed) }

theorem ProcessState.advance_eq_some {state next : ProcessState} {future : FutureId}
    {label : SettlementLabel} (advanced : state.advance future label = some next) :
    ∃ object requests, state.objects[future]? = some object ∧
      settlement.step object.requests label = some requests ∧
      next = { state with objects := state.objects.set future { object with requests } } := by
  rw [advance] at advanced
  split at advanced
  · next object found =>
      obtain ⟨requests, taken, rfl⟩ := Option.map_eq_some_iff.mp advanced
      exact ⟨object, requests, found, taken, rfl⟩
  · cases advanced

theorem processSteps_of_step {state next : ProcessState} {label : ProcessLabel}
    (stepped : requestProcess.step state label = some next) : ProcessSteps state label next := by
  cases label with
  | create address =>
      simp only [requestProcess, ProcessState.step] at stepped
      split at stepped <;> cases stepped
      exact .create (by assumption)
  | collect future =>
      simp only [requestProcess, ProcessState.step] at stepped
      split at stepped
      · next object found =>
          split at stepped <;> cases stepped
          next permitted => exact .collect found permitted.1 permitted.2
      · cases stepped
  | call future what timeout =>
      simp only [requestProcess, ProcessState.step] at stepped
      split at stepped
      · next live =>
          obtain ⟨object, requests, found, taken, rfl⟩ := ProcessState.advance_eq_some stepped
          exact .call found (by simpa [found] using live) taken
      · cases stepped
  | submit fetch raises =>
      simp only [requestProcess, ProcessState.step] at stepped
      obtain ⟨after, advanced, rfl⟩ := Option.map_eq_some_iff.mp stepped
      obtain ⟨object, requests, found, taken, rfl⟩ := ProcessState.advance_eq_some advanced
      have known := ProcessSteps.submit found taken
      cases raises <;> exact known
  | act fetch action =>
      simp only [requestProcess, ProcessState.step] at stepped
      split at stepped
      · next object found =>
          split at stepped
          · next requests after taken scheduled =>
              cases stepped
              exact .act found taken scheduled
          · cases stepped
      · cases stepped
  | publish =>
      simp only [requestProcess, ProcessState.step] at stepped
      split at stepped
      · next future ready queued =>
          obtain ⟨after, advanced, rfl⟩ := Option.map_eq_some_iff.mp stepped
          obtain ⟨object, requests, found, taken, rfl⟩ := ProcessState.advance_eq_some advanced
          exact .publish queued found taken
      · cases stepped
  | arrive future reply =>
      obtain ⟨object, requests, found, taken, rfl⟩ := ProcessState.advance_eq_some stepped
      exact .arrive found taken
  | tick elapsed =>
      simp only [requestProcess, ProcessState.step] at stepped
      split at stepped <;> cases stepped
      exact .tick (by assumption)

/-- The step of the calls on one future that a step of the process is. -/
inductive Projects (future : FutureId) : ProcessLabel → SettlementLabel → Prop
  | call (what : String) (timeout : Option Seconds) :
      Projects future (.call future what timeout) (.await (.start what timeout))
  | submit (id : CallId) (raises : Bool) :
      Projects future (.submit (future, id) raises) (.submit id raises)
  | act (id : CallId) (action : Action) :
      Projects future (.act (future, id) action) (.await (.act id action))
  | publish : Projects future .publish (.await .publish)
  | arrive (reply : Reply) : Projects future (.arrive future reply) (.await (.arrive reply))
  | tick (elapsed : Rat) : Projects future (.tick elapsed) (.await (.tick elapsed))

/-- A step of one call, written down. -/
theorem SettlementState.step_await {state next : SettlementState} {label : AwaitLabel}
    (taken : settlement.step state (.await label) = some next) :
    ∃ after, Steps state.await label after ∧ next = state.record label after := by
  simp only [settlement, SettlementState.step] at taken
  split at taken
  · obtain ⟨after, stepped, rfl⟩ := Option.map_eq_some_iff.mp taken
    exact ⟨after, steps_of_step stepped, rfl⟩
  · cases taken

theorem SettlementState.step_submit {state next : SettlementState} {id : CallId} {raises : Bool}
    (taken : settlement.step state (.submit id raises) = some next) :
    state.submissions[id]? = some .pending ∧
      next = { state with
        submissions := state.submissions.set id (if raises then .oneOffThread else .pool) } := by
  simp only [settlement, SettlementState.step] at taken
  split at taken
  · next pending => cases taken; exact ⟨pending, rfl⟩
  · cases taken

end ObscuraProto
