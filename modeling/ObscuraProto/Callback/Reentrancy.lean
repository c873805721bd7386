import ObscuraProto.Dispatcher.Invocation
import ObscuraProto.Library.Transition

/-!
# Blocking calls and nested callbacks

Blocking calls are refused while the thread-local flag is set.  Every wrapper sets
the flag on entry and clears it on exit without looking at what it was before, so
the flag speaks of the callback entered or left last.
-/

namespace ObscuraProto

open Transition

/-! ## The guarded calls -/

/-- `_in_callback_thread`. -/
def inCallbackThread : Py Bool := return (← get).inCallback

section Guarded

variable {α : Type}

/-- A blocking call: refused from inside a callback, and otherwise the native call. -/
def guarded (refusal : String) (native : Py α) : Py α := do
  if ← inCallbackThread then throw (.logicError refusal)
  native

def syncRequestRefusal : String :=
  "sync_request cannot be called from a callback/IO thread"

def Server.stopRefusal : String :=
  "Server.stop() cannot be called from a callback/IO thread (self-join deadlock)"

def Client.disconnectRefusal : String :=
  "Client.disconnect() cannot be called from a callback/IO thread (self-join deadlock)"

def Server.stop (native : Py α) : Py α := guarded stopRefusal native

def Server.syncRequest (native : Py α) : Py α := guarded syncRequestRefusal native

def Server.syncRequestToIdentity (native : Py α) : Py α := guarded syncRequestRefusal native

/-- Without a timeout the native default applies. -/
def Client.syncRequest (native : Option Int → Py α) (timeoutMs : Option Int) : Py α :=
  guarded syncRequestRefusal <|
    match timeoutMs with
    | none => native none
    | some limit => native (some limit)

def Client.disconnect (native : Py α) : Py α := guarded disconnectRefusal native

@[simp] theorem exec_guarded (refusal : String) (native : Py α) (world : World) :
    (guarded refusal native).exec world =
      if world.inCallback then (.error (.logicError refusal), world) else native.exec world := by
  cases set : world.inCallback <;> simp [guarded, inCallbackThread, set]

end Guarded

inductive BlockingCall where
  | serverStop | serverSyncRequest | serverSyncRequestToIdentity
  | clientSyncRequest (timeoutMs : Option Int)
  | clientDisconnect
  deriving DecidableEq

namespace BlockingCall

/-- The call, with `native` what the native side does for it. -/
def perform (native : BlockingCall → Py PyValue) : BlockingCall → Py PyValue
  | serverStop => Server.stop (native serverStop)
  | serverSyncRequest => Server.syncRequest (native serverSyncRequest)
  | serverSyncRequestToIdentity =>
      Server.syncRequestToIdentity (native serverSyncRequestToIdentity)
  | clientSyncRequest timeoutMs =>
      Client.syncRequest (fun limit => native (clientSyncRequest limit)) timeoutMs
  | clientDisconnect => Client.disconnect (native clientDisconnect)

def refusal : BlockingCall → String
  | serverStop => Server.stopRefusal
  | serverSyncRequest | serverSyncRequestToIdentity | clientSyncRequest _ => syncRequestRefusal
  | clientDisconnect => Client.disconnectRefusal

theorem exec_perform (native : BlockingCall → Py PyValue) (call : BlockingCall) (world : World) :
    (call.perform native).exec world =
      if world.inCallback then (.error (.logicError call.refusal), world)
      else (native call).exec world := by
  cases call with
  | clientSyncRequest timeoutMs => cases timeoutMs <;> exact exec_guarded _ _ world
  | serverStop => exact exec_guarded _ _ world
  | serverSyncRequest => exact exec_guarded _ _ world
  | serverSyncRequestToIdentity => exact exec_guarded _ _ world
  | clientDisconnect => exact exec_guarded _ _ world

end BlockingCall

/-! ## Callbacks running on one thread -/

/-- Where a running wrapper is. -/
inductive Phase where
  /-- In the user's function. -/
  | callback
  /-- In `_wait_future_with_polling`. -/
  | waiting (coroutine : Coroutine) (resultTimeout : Seconds)
  /-- In the error handler, called from the inner or the outer `except` clause. -/
  | forwarding (inner : Bool)
  /-- In the error handler, called at once by `add_done_callback` because the coroutine
  has already failed. -/
  | doneCallback
  deriving DecidableEq

structure Frame where
  wrapper : Wrapper
  phase : Phase
  deriving DecidableEq

/-- One thread: the wrapped callbacks running on it, innermost first, and the
outcomes of those that ended. -/
structure ThreadState where
  world : World := {}
  frames : List Frame := []
  ended : List (Except PyExc Returned) := []
  deriving DecidableEq

inductive ThreadLabel where
  /-- A wrapped callback is called, by the native side or by code of this thread. -/
  | enter (wrapper : Wrapper)
  /-- The running user function returns or raises. -/
  | leave (behaviour : Behaviour)
  /-- It returns a coroutine that fails before its done-callback is added. -/
  | leaveFailed (coroutine : Coroutine)
  /-- The wait for a coroutine is over. -/
  | collect
  /-- The running error handler returns or raises. -/
  | reported (outcome : Except PyExc Unit)
  | setErrorHandler (handler : Option HandlerId)

namespace ThreadState

/-- `_set_callback_thread_flag` on this thread. -/
def setFlag (value : Bool) (state : ThreadState) : ThreadState :=
  { state with world := ((setCallbackThreadFlag value).exec state.world).2 }

/-- User code is running, or none is and the thread is free to call a callback. -/
def runsUserCode (state : ThreadState) : Bool :=
  match state.frames with
  | ⟨_, .waiting ..⟩ :: _ => false
  | _ => true

/-- The `finally` clause of a wrapper with `rest` under it. -/
def finish (state : ThreadState) (rest : List Frame) (outcome : Except PyExc Returned) :
    ThreadState :=
  { state.setFlag false with frames := rest, ended := state.ended ++ [outcome] }

/-- An exception is caught: the error handler starts, or the exception goes on. -/
def caught (state : ThreadState) (wrapper : Wrapper) (phase : Phase) (rest : List Frame)
    (e : PyExc) : ThreadState :=
  match state.world.dispatcher.errorHandler with
  | none => state.finish rest (.error e)
  | some handler =>
      { state with
        world := { state.world with reports := state.world.reports ++ [(handler, e)] }
        frames := ⟨wrapper, phase⟩ :: rest }

/-- The coroutine is given to the loop. -/
def schedule (state : ThreadState) (loop : LoopId) (coroutine : Coroutine) : ThreadState :=
  { state with world := ((runCoroutineThreadsafe coroutine loop).exec state.world).2 }

/-- A coroutine whose failure goes to the error handler later, if there is one. -/
def watch (state : ThreadState) (coroutine : Coroutine) : ThreadState :=
  match state.world.dispatcher.errorHandler with
  | none => state
  | some handler =>
      { state with world := { state.world with
        doneCallbacks := state.world.doneCallbacks ++ [(coroutine, handler)] } }

/-- The user function of the innermost wrapper is over. -/
def left (state : ThreadState) (wrapper : Wrapper) (rest : List Frame) :
    Behaviour → ThreadState
  | .returns value => state.finish rest (.ok (.value (wrapper.passed value)))
  | .raises e => state.caught wrapper (.forwarding false) rest e
  | .returnsCoroutine coroutine =>
      match wrapper with
      | .sync => state.finish rest (.ok (.coroutine coroutine))
      | .fireAndForget loop =>
          ((state.schedule loop coroutine).watch coroutine).finish rest (.ok (.value .none))
      | .withResult loop resultTimeout =>
          { state.schedule loop coroutine with
            frames := ⟨wrapper, .waiting coroutine resultTimeout⟩ :: rest }
      | .identity (some loop) resultTimeout =>
          { state.schedule loop coroutine with
            frames := ⟨wrapper, .waiting coroutine resultTimeout⟩ :: rest }
      | .identity none _ => state.caught wrapper (.forwarding false) rest noLoopAttached

/-- Only the waiting wrapper for results has an inner `except` clause. -/
def hasInnerExcept : Wrapper → Bool
  | .withResult .. => true
  | .sync | .fireAndForget _ | .identity .. => false

def step (state : ThreadState) : ThreadLabel → Option ThreadState
  | .enter wrapper =>
      if state.runsUserCode then
        some { state.setFlag true with frames := ⟨wrapper, .callback⟩ :: state.frames }
      else none
  | .leave behaviour =>
      match state.frames with
      | ⟨wrapper, .callback⟩ :: rest => some (state.left wrapper rest behaviour)
      | _ => none
  | .leaveFailed coroutine =>
      match state.frames, state.world.dispatcher.errorHandler, coroutine.failure with
      | ⟨.fireAndForget loop, .callback⟩ :: rest, some _, some e =>
          some ((state.schedule loop coroutine).caught (.fireAndForget loop) .doneCallback rest e)
      | _, _, _ => none
  | .collect =>
      match state.frames with
      | ⟨wrapper, .waiting coroutine resultTimeout⟩ :: rest =>
          match (waitFutureWithPolling coroutine resultTimeout).exec state.world with
          | (.ok value, world) =>
              some ({ state with world }.finish rest (.ok (.value (wrapper.passed value))))
          | (.error e, world) =>
              some ({ state with world }.caught wrapper (.forwarding (hasInnerExcept wrapper))
                rest e)
      | _ => none
  | .reported outcome =>
      match state.frames with
      | ⟨wrapper, .forwarding inner⟩ :: rest =>
          match outcome with
          | .ok _ => some (state.finish rest (.ok wrapper.absorbed))
          | .error e =>
              if inner then some (state.caught wrapper (.forwarding false) rest e)
              else some (state.finish rest (.error e))
      -- The future logs what a done-callback raises.
      | ⟨_, .doneCallback⟩ :: rest => some (state.finish rest (.ok (.value .none)))
      | _ => none
  | .setErrorHandler handler =>
      some { state with world :=
        { state.world with dispatcher := state.world.dispatcher.setErrorHandler handler } }

end ThreadState

def callbackThread : System ThreadState ThreadLabel := ⟨{}, ThreadState.step⟩

/-! ## What a step does to the flag -/

namespace ThreadState

section Updates

/-- The step keeps the flag and the number of running callbacks. -/
def Stays (state next : ThreadState) : Prop :=
  next.world.inCallback = state.world.inCallback ∧ next.frames.length = state.frames.length

/-- The step ends the innermost callback. -/
def Ends (state next : ThreadState) : Prop :=
  next.world.inCallback = false ∧ next.frames.length + 1 = state.frames.length

variable {state : ThreadState} {wrapper : Wrapper} {rest : List Frame} {frame : Frame}
  (shape : state.frames = frame :: rest) (after : ThreadState)

include shape

theorem ends_finish (outcome : Except PyExc Returned) :
    state.Ends (after.finish rest outcome) := by
  constructor
  · rfl
  · rw [shape]
    rfl

theorem stays_replace (same : after.world.inCallback = state.world.inCallback) (other : Frame) :
    state.Stays { after with frames := other :: rest } := by
  constructor
  · exact same
  · rw [shape]
    rfl

theorem caught_cases (same : after.world.inCallback = state.world.inCallback) (phase : Phase)
    (e : PyExc) :
    state.Stays (after.caught wrapper phase rest e) ∨
      state.Ends (after.caught wrapper phase rest e) := by
  rw [caught]
  split
  · exact .inr (ends_finish shape after (.error e))
  · next handler _ =>
      let reported := { after.world with reports := after.world.reports ++ [(handler, e)] }
      exact .inl (stays_replace shape { after with world := reported } same _)

omit after in
theorem left_cases (behaviour : Behaviour) :
    state.Stays (state.left wrapper rest behaviour) ∨
      state.Ends (state.left wrapper rest behaviour) := by
  cases behaviour with
  | returns value => exact .inr (ends_finish shape _ _)
  | raises e => exact caught_cases shape _ rfl _ e
  | returnsCoroutine coroutine =>
      cases wrapper with
      | sync => exact .inr (ends_finish shape _ _)
      | fireAndForget loop => exact .inr (ends_finish shape _ _)
      | withResult loop resultTimeout =>
          exact .inl (stays_replace shape (state.schedule loop coroutine) rfl _)
      | identity loop resultTimeout =>
          cases loop with
          | none => exact caught_cases shape _ rfl _ noLoopAttached
          | some loop =>
              exact .inl (stays_replace shape (state.schedule loop coroutine) rfl _)

end Updates

/-- Only the call of a wrapped callback adds a running one. -/
theorem stays_or_ends {state next : ThreadState} {label : ThreadLabel}
    (other : ∀ wrapper, label ≠ .enter wrapper) (taken : state.step label = some next) :
    state.Stays next ∨ state.Ends next := by
  cases label with
  | enter wrapper => exact absurd rfl (other wrapper)
  | leave behaviour =>
      rw [step] at taken
      split at taken
      · next wrapper rest shape =>
          cases taken
          exact left_cases shape behaviour
      · cases taken
  | leaveFailed coroutine =>
      rw [step] at taken
      split at taken
      · next shape _ _ =>
          cases taken
          exact caught_cases shape (state.schedule _ coroutine) rfl _ _
      · cases taken
  | collect =>
      rw [step] at taken
      split at taken
      · next wrapper coroutine resultTimeout rest shape =>
          have kept : ((waitFutureWithPolling coroutine resultTimeout).exec
              state.world).2.inCallback = state.world.inCallback := by
            rw [exec_waitFutureWithPolling]
          split at taken
          · cases taken
            exact .inr (ends_finish shape _ _)
          · next world outcome =>
              rw [outcome] at kept
              cases taken
              exact caught_cases shape _ kept _ _
      · cases taken
  | reported outcome =>
      rw [step] at taken
      split at taken
      · next wrapper inner rest shape =>
          split at taken
          · cases taken
            exact .inr (ends_finish shape _ _)
          · split at taken
            · cases taken
              exact caught_cases shape _ rfl _ _
            · cases taken
              exact .inr (ends_finish shape _ _)
      · next shape =>
          cases taken
          exact .inr (ends_finish shape _ _)
      · cases taken
  | setErrorHandler handler =>
      cases taken
      exact .inl ⟨rfl, rfl⟩

/-- A step enters a callback and sets the flag, ends one and clears it, or leaves both
alone. -/
theorem step_cases {state next : ThreadState} {label : ThreadLabel}
    (taken : state.step label = some next) :
    (∃ wrapper, label = .enter wrapper ∧ next.world.inCallback = true ∧
        next.frames = ⟨wrapper, .callback⟩ :: state.frames) ∨
      (∀ wrapper, label ≠ .enter wrapper) ∧ (state.Stays next ∨ state.Ends next) := by
  by_cases enters : ∃ wrapper, label = .enter wrapper
  · obtain ⟨wrapper, rfl⟩ := enters
    simp only [step, Option.ite_none_right_eq_some, Option.some.injEq] at taken
    obtain ⟨-, rfl⟩ := taken
    exact .inl ⟨wrapper, rfl, rfl, rfl⟩
  · have other := not_exists.mp enters
    exact .inr ⟨other, stays_or_ends other taken⟩

end ThreadState

/-! ## The flag over a history -/

namespace ThreadState

/-- The flag is set exactly while a wrapped callback is running, so blocking calls are
refused inside callbacks and nowhere else. -/
structure Covered (state : ThreadState) : Prop where
  flag : state.world.inCallback = true ↔ state.frames ≠ []
  refused : state.frames ≠ [] → ∀ (native : BlockingCall → Py PyValue) (call : BlockingCall),
    (call.perform native).exec state.world = (.error (.logicError call.refusal), state.world)
  allowed : state.frames = [] → ∀ (native : BlockingCall → Py PyValue) (call : BlockingCall),
    (call.perform native).exec state.world = (native call).exec state.world

theorem covered_of_flag {state : ThreadState}
    (flag : state.world.inCallback = true ↔ state.frames ≠ []) : state.Covered where
  flag
  refused running native call := by
    rw [BlockingCall.exec_perform, if_pos (flag.mpr running)]
  allowed idle native call := by
    have clear : ¬ state.world.inCallback = true := by
      rw [flag]
      exact not_not_intro idle
    rw [BlockingCall.exec_perform, if_neg clear]

/-- No wrapped callback is called from inside another one. -/
def Unnested (state : ThreadState) : ThreadLabel → Prop
  | .enter _ => state.frames = []
  | _ => True

instance (state : ThreadState) : (label : ThreadLabel) → Decidable (state.Unnested label)
  | .enter _ => inferInstanceAs (Decidable (state.frames = []))
  | .leave _ | .leaveFailed _ | .collect | .reported _ | .setErrorHandler _ => isTrue trivial

/-- At most one callback is running, and the flag tells whether one is. -/
structure Level (state : ThreadState) : Prop where
  flag : state.world.inCallback = true ↔ 0 < state.frames.length
  single : state.frames.length ≤ 1

theorem Level.covered {state : ThreadState} (level : state.Level) : state.Covered := by
  apply covered_of_flag
  rw [level.flag, List.length_pos_iff]

theorem Level.step {state next : ThreadState} {label : ThreadLabel} (level : state.Level)
    (unnested : state.Unnested label) (taken : state.step label = some next) : next.Level := by
  have flag := level.flag
  have single := level.single
  rcases step_cases taken with ⟨wrapper, rfl, set, frames⟩ | ⟨-, stays | ends⟩
  · have idle : state.frames = [] := unnested
    rw [idle] at frames
    exact ⟨by simp [set, frames], by simp [frames]⟩
  · exact ⟨by rw [stays.1, stays.2, flag], by rw [stays.2]; exact single⟩
  · have empty : next.frames.length = 0 := by
      have shorter := ends.2
      omega
    exact ⟨by simp [ends.1, empty], by omega⟩

/-- Without nesting the flag is right all the time. -/
theorem Level.throughout {state final : ThreadState} {history : List ThreadLabel}
    (level : state.Level) (ran : callbackThread.run Unnested state history = some final) :
    callbackThread.Throughout Covered state history := by
  induction history generalizing state with
  | nil => exact level.covered
  | cons label history ih =>
      obtain ⟨unnested, next, taken, later⟩ := System.run_cons ran
      refine ⟨level.covered, ?_⟩
      intro other same
      rw [taken, Option.some.injEq] at same
      exact same ▸ ih (level.step unnested taken) later

/-- Two callbacks cannot both end with the flag right all the time: it is clear when
the inner one has ended. -/
theorem not_throughout_of_deep {state final : ThreadState} {history : List ThreadLabel}
    (ran : callbackThread.run System.Free state history = some final)
    (complete : final.frames = []) (deep : 2 ≤ state.frames.length) :
    ¬ callbackThread.Throughout Covered state history := by
  induction history generalizing state with
  | nil =>
      cases ran
      simp [complete] at deep
  | cons label history ih =>
      intro throughout
      obtain ⟨-, next, taken, later⟩ := System.run_cons ran
      have after := throughout.2 next taken
      rcases step_cases taken with ⟨wrapper, rfl, -, frames⟩ | ⟨-, stays | ends⟩
      · apply ih later _ after
        rw [frames, List.length_cons]
        omega
      · apply ih later _ after
        rw [stays.2]
        exact deep
      · have running : next.frames ≠ [] := by
          rw [← List.length_pos_iff]
          have shorter := ends.2
          omega
        have set := after.first.flag.mpr running
        rw [ends.1] at set
        cases set

/-- A history in which all callbacks end and the flag is always right has no nested
callback. -/
theorem unnested_of_throughout {state final : ThreadState} {history : List ThreadLabel}
    (ran : callbackThread.run System.Free state history = some final)
    (complete : final.frames = [])
    (throughout : callbackThread.Throughout Covered state history) :
    callbackThread.run Unnested state history = some final := by
  induction history generalizing state with
  | nil => exact ran
  | cons label history ih =>
      obtain ⟨-, next, taken, later⟩ := System.run_cons ran
      have after := throughout.2 next taken
      have unnested : state.Unnested label := by
        rcases step_cases taken with ⟨wrapper, rfl, -, frames⟩ | ⟨other, -⟩
        · by_contra running
          apply not_throughout_of_deep later complete _ after
          have outer : 0 < state.frames.length := List.length_pos_iff.mpr running
          rw [frames, List.length_cons]
          omega
        · cases label with
          | enter wrapper => exact absurd rfl (other wrapper)
          | leave _ | leaveFailed _ | collect | reported _ | setErrorHandler _ => trivial
      rw [System.run_of_step unnested taken]
      exact ih later after

theorem level_initial : callbackThread.initial.Level :=
  ⟨by decide, by decide⟩

end ThreadState

/-- Over a history in which every wrapped callback ends, the flag covers exactly the
callbacks if and only if none of them is called from inside another. -/
theorem callbackFlag_covers_iff (history : List ThreadLabel) (final : ThreadState)
    (ran : callbackThread.run System.Free callbackThread.initial history = some final)
    (complete : final.frames = []) :
    callbackThread.Throughout ThreadState.Covered callbackThread.initial history ↔
      callbackThread.run ThreadState.Unnested callbackThread.initial history = some final := by
  constructor
  · exact ThreadState.unnested_of_throughout ran complete
  · exact ThreadState.level_initial.throughout

/-- A callback that raises into an error handler, and another after it. -/
theorem callbackFlag_covers_sequence :
    callbackThread.Throughout ThreadState.Covered callbackThread.initial
      [.setErrorHandler (some 1), .enter .sync, .leave (.raises (.typeError "")),
        .reported (.ok ()), .enter .sync, .leave (.returns .none)] :=
  (callbackFlag_covers_iff _
    { world :=
        { dispatcher := { errorHandler := some 1 }
          reports := [(1, .typeError "")] }
      ended := [.ok (.value .none), .ok (.value .none)] } (by decide) rfl).mpr (by decide)

/-- A callback calls another wrapped callback: when that returns, the flag is clear and
the outer callback is still running. -/
theorem callbackFlag_cleared_by_inner :
    ¬ ∀ (history : List ThreadLabel) (final : ThreadState),
      callbackThread.run System.Free callbackThread.initial history = some final →
      final.frames = [] →
        callbackThread.Throughout ThreadState.Covered callbackThread.initial history := by
  intro every
  have throughout := every
    [.enter .sync, .enter .sync, .leave (.returns .none), .leave (.returns .none)]
    { ended := [.ok (.value .none), .ok (.value .none)] } (by decide) rfl
  have covered := (((throughout.2 _ rfl).2 _ rfl).2 _ rfl).1
  exact absurd (covered.flag.mpr (by decide)) (by decide)

end ObscuraProto
