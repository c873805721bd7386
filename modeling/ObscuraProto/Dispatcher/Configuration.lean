import ObscuraProto.Dispatcher.Reporting

/-!
# Configuration calls before the first callback

Attaching a loop, registering handlers and setting the error handler may come in
any order.  A callback keeps the loop its dispatcher held when it was wrapped, so
the order shows when an async handler is registered before the loop it should
run on is attached.
-/

namespace ObscuraProto

/-- The handler registrations of `Server` and `Client`. -/
inductive Registration where
  | onPayload
  | defaultPayloadHandler
  | onAnonPayload
  | anonDefaultPayloadHandler
  | onOpen
  | onClose
  | onReady
  | onDisconnect
  | onRequest
  | onAnonRequest
  | onIncomingStream
  | onStream
  | onAnonStream
  | onClientIdentity
  deriving DecidableEq

/-- The dispatcher method each registration wraps its handler with. -/
def Registration.wrap (running : Option LoopId) (dispatcher : Dispatcher) :
    Registration → Dispatcher × Wrapper
  | onPayload | defaultPayloadHandler | onAnonPayload | anonDefaultPayloadHandler
  | onOpen | onClose | onReady | onDisconnect => dispatcher.wrapFireAndForget running
  | onRequest | onAnonRequest
  | onIncomingStream | onStream | onAnonStream => dispatcher.wrap running
  | onClientIdentity => dispatcher.wrapIdentity running

/-- A configuration call with what it finds around it: the running loop, and for
`attach_event_loop` the default one. -/
inductive ConfigCall where
  | attachEventLoop (loop running default : Option LoopId)
  | register (registration : Registration) (running : Option LoopId)
  | onError (handler : Option HandlerId)
  deriving DecidableEq

namespace ConfigCall

def perform (dispatcher : Dispatcher) : ConfigCall → Dispatcher
  | attachEventLoop loop running default => dispatcher.attach loop running default
  | register registration running => (registration.wrap running dispatcher).1
  | onError handler => dispatcher.setErrorHandler handler

/-- The loop a call attaches. -/
def attached : ConfigCall → Option LoopId
  | attachEventLoop loop running default => loop.or (running.or default)
  | _ => none

/-- The running loop a registration detects. -/
def detected : ConfigCall → Option LoopId
  | register _ running => running
  | _ => none

def errorHandler : ConfigCall → Option (Option HandlerId)
  | onError handler => some handler
  | _ => none

def isAttach : ConfigCall → Bool
  | attachEventLoop .. => true
  | _ => false

end ConfigCall

/-- A sequence of configuration calls on an endpoint. -/
def configure (calls : List ConfigCall) (dispatcher : Dispatcher) : Dispatcher :=
  calls.foldl ConfigCall.perform dispatcher

def lastAttached (calls : List ConfigCall) : Option LoopId :=
  calls.reverse.findSome? ConfigCall.attached

def firstDetected (calls : List ConfigCall) : Option LoopId :=
  calls.findSome? ConfigCall.detected

def lastErrorHandler (calls : List ConfigCall) : Option (Option HandlerId) :=
  calls.reverse.findSome? ConfigCall.errorHandler

/-- A registration together with the configuration calls around it. -/
structure Setup where
  before : List ConfigCall
  registration : Registration
  running : Option LoopId
  after : List ConfigCall

namespace Setup

def calls (setup : Setup) : List ConfigCall :=
  setup.before ++ .register setup.registration setup.running :: setup.after

/-- The endpoint's dispatcher once all calls are made. -/
def configured (setup : Setup) : Dispatcher :=
  configure setup.calls {}

/-- The callback handed to the native side by the registration. -/
def wrapper (setup : Setup) : Wrapper :=
  (setup.registration.wrap setup.running (configure setup.before {})).2

/-- The same calls with every `attach_event_loop` in front. -/
def attachedFirst (setup : Setup) : Setup where
  before := setup.calls.filter (·.isAttach) ++ setup.before.filter (!·.isAttach)
  registration := setup.registration
  running := setup.running
  after := setup.after.filter (!·.isAttach)

/-- The loop held by the dispatcher when the handler is registered: the one
attached last, or else the first running loop a registration saw. -/
def heldLoop (setup : Setup) : Option LoopId :=
  (lastAttached setup.before).or ((firstDetected setup.before).or setup.running)

/-- A later native call of the registered callback. -/
def invoke (setup : Setup) (react : Reactions) (behaviour : Behaviour) (world : World) :
    Except PyExc Returned × World :=
  invokeAndSettle react.handlers setup.wrapper behaviour.callback
    { world with dispatcher := setup.configured }

/-- A call has the effect it would have had with the loop attached first, and a
coroutine it produces is scheduled once, on the loop the endpoint is left with, and not
returned to the native layer. -/
def AsIfAttachedFirst (setup : Setup) (react : Reactions) (behaviour : Behaviour)
    (world : World) : Prop :=
  setup.invoke react behaviour world = setup.attachedFirst.invoke react behaviour world ∧
    ∀ coroutine, behaviour = .returnsCoroutine coroutine →
      (∃ loop, setup.configured.loop = some loop ∧
        (setup.invoke react behaviour world).2.scheduled =
          world.scheduled ++ [(loop, coroutine)]) ∧
      (setup.invoke react behaviour world).1 ≠ .ok (.coroutine coroutine)

end Setup

/-! ## What a sequence of calls leaves behind -/

section LastAndFirst

variable (call : ConfigCall) (calls others : List ConfigCall)

@[simp] theorem lastAttached_nil : lastAttached [] = none := rfl

@[simp] theorem lastAttached_cons :
    lastAttached (call :: calls) = (lastAttached calls).or call.attached := by
  simp [lastAttached, List.findSome?_append]

@[simp] theorem lastAttached_append :
    lastAttached (calls ++ others) = (lastAttached others).or (lastAttached calls) := by
  simp [lastAttached, List.findSome?_append]

@[simp] theorem firstDetected_nil : firstDetected [] = none := rfl

@[simp] theorem firstDetected_cons :
    firstDetected (call :: calls) = call.detected.or (firstDetected calls) := by
  rw [firstDetected, List.findSome?_cons]
  cases call.detected <;> rfl

@[simp] theorem firstDetected_append :
    firstDetected (calls ++ others) = (firstDetected calls).or (firstDetected others) :=
  List.findSome?_append

@[simp] theorem lastErrorHandler_nil : lastErrorHandler [] = none := rfl

@[simp] theorem lastErrorHandler_cons :
    lastErrorHandler (call :: calls) = (lastErrorHandler calls).or call.errorHandler := by
  simp [lastErrorHandler, List.findSome?_append]

@[simp] theorem lastErrorHandler_append :
    lastErrorHandler (calls ++ others) =
      (lastErrorHandler others).or (lastErrorHandler calls) := by
  simp [lastErrorHandler, List.findSome?_append]

end LastAndFirst

@[simp] theorem ConfigCall.isAttach_attachEventLoop (loop running default : Option LoopId) :
    (attachEventLoop loop running default).isAttach = true := rfl

@[simp] theorem ConfigCall.isAttach_register (registration : Registration)
    (running : Option LoopId) : (register registration running).isAttach = false := rfl

@[simp] theorem ConfigCall.isAttach_onError (handler : Option HandlerId) :
    (onError handler).isAttach = false := rfl

/-- Attaching calls and the others do not share what they set. -/
theorem filter_isAttach (calls : List ConfigCall) :
    lastAttached (calls.filter (·.isAttach)) = lastAttached calls ∧
      firstDetected (calls.filter (·.isAttach)) = none ∧
      lastErrorHandler (calls.filter (·.isAttach)) = none := by
  induction calls with
  | nil => simp
  | cons call calls ih =>
      obtain ⟨attached, detected, handler⟩ := ih
      cases call <;>
        simp [List.filter_cons, ConfigCall.attached, ConfigCall.detected,
          ConfigCall.errorHandler, attached, detected, handler]

theorem filter_not_isAttach (calls : List ConfigCall) :
    lastAttached (calls.filter (!·.isAttach)) = none ∧
      firstDetected (calls.filter (!·.isAttach)) = firstDetected calls ∧
      lastErrorHandler (calls.filter (!·.isAttach)) = lastErrorHandler calls := by
  induction calls with
  | nil => simp
  | cons call calls ih =>
      obtain ⟨attached, detected, handler⟩ := ih
      cases call <;>
        simp [ConfigCall.attached, ConfigCall.detected, ConfigCall.errorHandler, attached,
          detected, handler]

theorem Dispatcher.detectLoop_eq (dispatcher : Dispatcher) (running : Option LoopId) :
    dispatcher.detectLoop running = { dispatcher with loop := dispatcher.loop.or running } := by
  obtain ⟨_ | loop, errorHandler, resultTimeout⟩ := dispatcher <;> rfl

theorem Dispatcher.attach_eq (dispatcher : Dispatcher) (loop running default : Option LoopId) :
    dispatcher.attach loop running default =
      { dispatcher with loop := (loop.or (running.or default)).or dispatcher.loop } := by
  rw [attach]
  cases loop.or (running.or default) <;> rfl

/-- The callback a registration makes from a loop and a timeout. -/
def Registration.wrapper (loop : Option LoopId) (resultTimeout : Seconds) :
    Registration → Wrapper
  | onPayload | defaultPayloadHandler | onAnonPayload | anonDefaultPayloadHandler
  | onOpen | onClose | onReady | onDisconnect => loop.elim .sync .fireAndForget
  | onRequest | onAnonRequest
  | onIncomingStream | onStream | onAnonStream =>
      loop.elim .sync fun loop => .withResult loop resultTimeout
  | onClientIdentity => .identity loop resultTimeout

/-- Every registration detects the running loop and captures the loop held then. -/
theorem Registration.wrap_eq (registration : Registration) (running : Option LoopId)
    (dispatcher : Dispatcher) :
    registration.wrap running dispatcher =
      ({ dispatcher with loop := dispatcher.loop.or running },
        registration.wrapper (dispatcher.loop.or running) dispatcher.resultTimeout) := by
  cases registration <;>
    simp only [wrap, wrapper, Dispatcher.wrap, Dispatcher.wrapFireAndForget,
      Dispatcher.wrapIdentity, Dispatcher.detectLoop_eq] <;>
    cases dispatcher.loop.or running <;> rfl

/-- The dispatcher after a sequence of calls. -/
theorem configure_eq (calls : List ConfigCall) (dispatcher : Dispatcher) :
    configure calls dispatcher =
      { loop := (lastAttached calls).or (dispatcher.loop.or (firstDetected calls))
        errorHandler := (lastErrorHandler calls).getD dispatcher.errorHandler
        resultTimeout := dispatcher.resultTimeout } := by
  induction calls generalizing dispatcher with
  | nil => simp [configure]
  | cons call calls ih =>
      change configure calls (call.perform dispatcher) = _
      rw [ih]
      cases call with
      | attachEventLoop loop running default =>
          simp [ConfigCall.perform, Dispatcher.attach_eq, ConfigCall.attached,
            ConfigCall.detected, ConfigCall.errorHandler, Option.or_assoc]
      | register registration running =>
          simp [ConfigCall.perform, Registration.wrap_eq, ConfigCall.attached,
            ConfigCall.detected, ConfigCall.errorHandler, Option.or_assoc]
      | onError handler =>
          cases later : lastErrorHandler calls <;>
            simp [ConfigCall.perform, Dispatcher.setErrorHandler, ConfigCall.attached,
              ConfigCall.detected, ConfigCall.errorHandler, later]

namespace Setup

variable (setup : Setup)

theorem wrapper_eq :
    setup.wrapper = setup.registration.wrapper setup.heldLoop ⟨5, "5.0"⟩ := by
  simp [wrapper, Registration.wrap_eq, configure_eq, heldLoop, Option.or_assoc]

/-- With the attaching calls in front, the handler is registered on the loop
attached last. -/
theorem heldLoop_attachedFirst :
    setup.attachedFirst.heldLoop =
      (lastAttached setup.calls).or ((firstDetected setup.before).or setup.running) := by
  obtain ⟨attached, detected, -⟩ := filter_isAttach setup.calls
  obtain ⟨none_attached, same_detected, -⟩ := filter_not_isAttach setup.before
  simp only [heldLoop, attachedFirst, lastAttached_append, firstDetected_append, attached,
    detected, none_attached, same_detected, Option.none_or]

theorem calls_attachedFirst :
    setup.attachedFirst.calls =
      setup.calls.filter (·.isAttach) ++ setup.calls.filter (!·.isAttach) := by
  simp [calls, attachedFirst]

/-- Both orders leave the same dispatcher behind. -/
theorem configured_attachedFirst : setup.attachedFirst.configured = setup.configured := by
  obtain ⟨attached, detected, handler⟩ := filter_isAttach setup.calls
  obtain ⟨none_attached, same_detected, same_handler⟩ := filter_not_isAttach setup.calls
  simp only [configured, configure_eq, calls_attachedFirst, lastAttached_append,
    firstDetected_append, lastErrorHandler_append, attached, detected, handler,
    none_attached, same_detected, same_handler, Option.none_or, Option.or_none]

theorem loop_configured :
    setup.configured.loop = (lastAttached setup.calls).or (firstDetected setup.calls) := by
  simp [configured, configure_eq]

/-- A handler holds the loop the endpoint is left with unless another is attached
later. -/
theorem loop_configured_of_held {loop : LoopId} (held : setup.heldLoop = some loop)
    (last : ∀ attached, lastAttached setup.calls = some attached → attached = loop) :
    setup.configured.loop = some loop := by
  rw [loop_configured]
  cases attached : lastAttached setup.calls with
  | some other => rw [last other attached, Option.some_or]
  | none =>
      have before : lastAttached setup.before = none := by
        simp only [calls, lastAttached_append, Option.or_eq_none_iff] at attached
        exact attached.2
      rw [heldLoop, before, Option.none_or] at held
      rw [Option.none_or, calls, firstDetected_append, firstDetected_cons, ← Option.or_assoc,
        ConfigCall.detected, held, Option.some_or]

end Setup

/-! ## What a call does under either loop -/

section Loops

variable (react : Reactions) (registration : Registration) (loop other : Option LoopId)
  (resultTimeout : Seconds) (world : World)

theorem Registration.absorbed_wrapper :
    (registration.wrapper loop resultTimeout).absorbed =
      (registration.wrapper other resultTimeout).absorbed := by
  cases registration <;> cases loop <;> cases other <;> rfl

theorem Registration.passed_wrapper (value : PyValue) :
    (registration.wrapper loop resultTimeout).passed value =
      (registration.wrapper other resultTimeout).passed value := by
  cases registration <;> cases loop <;> cases other <;> rfl

/-- A callback that hands back no coroutine does the same under every loop. -/
theorem invokeAndSettle_wrapper_of_not_coroutine (behaviour : Behaviour)
    (finished : ∀ coroutine, behaviour ≠ .returnsCoroutine coroutine) :
    invokeAndSettle react.handlers (registration.wrapper loop resultTimeout)
        behaviour.callback world =
      invokeAndSettle react.handlers (registration.wrapper other resultTimeout)
        behaviour.callback world := by
  cases behaviour with
  | returnsCoroutine coroutine => exact absurd rfl (finished coroutine)
  | returns value =>
      rw [settle_returns, settle_returns, registration.passed_wrapper loop other]
  | raises e =>
      rw [settle_raises, settle_raises, registration.absorbed_wrapper loop other]

end Loops

/-- The loop a wrapper captured. -/
def Wrapper.loop : Wrapper → Option LoopId
  | sync => none
  | fireAndForget loop | withResult loop _ => some loop
  | identity loop _ => loop

theorem Registration.loop_wrapper (registration : Registration) (loop : Option LoopId)
    (resultTimeout : Seconds) : (registration.wrapper loop resultTimeout).loop = loop := by
  cases registration <;> cases loop <;> rfl

section Coroutines

variable (react : Reactions) (wrapper : Wrapper) (coroutine : Coroutine) (world : World)

/-- The `except` clause schedules nothing and hands back no coroutine. -/
theorem forwarded_scheduled (value : PyValue) (e : PyExc) :
    (forwarded react (.value value) e world).2.scheduled = world.scheduled ∧
      (forwarded react (.value value) e world).1 ≠ .ok (.coroutine coroutine) := by
  rw [forwarded]
  cases world.dispatcher.errorHandler with
  | none => simp
  | some handler => cases reaction : react handler e <;> simp [reaction, Except.map]

/-- A coroutine goes to the captured loop, and comes back to the native side only
without one. -/
theorem settle_coroutine :
    (invokeAndSettle react.handlers wrapper
        (Behaviour.returnsCoroutine coroutine).callback world).2.scheduled =
        world.scheduled ++ (wrapper.loop.map fun loop => (loop, coroutine)).toList ∧
      (wrapper.loop ≠ none →
        (invokeAndSettle react.handlers wrapper
          (Behaviour.returnsCoroutine coroutine).callback world).1 ≠
            .ok (.coroutine coroutine)) := by
  cases wrapper with
  | sync => simp [settle_sync_coroutine, Wrapper.loop]
  | fireAndForget loop => simp [settle_fireAndForget_coroutine, Wrapper.loop]
  | withResult loop resultTimeout =>
      rw [settle_withResult_coroutine]
      cases coroutine.waitOutcome resultTimeout with
      | ok value => simp [World.waited, Wrapper.loop]
      | error e =>
          have once := forwarded_scheduled react coroutine (world.waited loop coroutine) .none e
          simp only []
          generalize forwarded react (.value .none) e (world.waited loop coroutine) = first
            at once
          obtain ⟨raised | absorbed, after⟩ := first
          · have again := forwarded_scheduled react coroutine after .none raised
            exact ⟨again.1.trans once.1, fun _ => again.2⟩
          · exact ⟨once.1, fun _ => once.2⟩
  | identity captured resultTimeout =>
      cases captured with
      | none =>
          rw [settle_identity_none_coroutine]
          have kept := forwarded_scheduled react coroutine { world with inCallback := false }
            (.bool false) noLoopAttached
          exact ⟨by simpa [Wrapper.loop] using kept.1, fun _ => kept.2⟩
      | some loop =>
          rw [settle_identity_some_coroutine]
          cases coroutine.waitOutcome resultTimeout with
          | ok value => simp [World.waited, Wrapper.loop]
          | error e =>
              have kept := forwarded_scheduled react coroutine (world.waited loop coroutine)
                (.bool false) e
              exact ⟨kept.1, fun _ => kept.2⟩

end Coroutines

namespace Setup

variable (setup : Setup) (react : Reactions) (behaviour : Behaviour) (world : World)

/-- Registering on the loop that is attached last makes the order irrelevant. -/
theorem heldLoop_eq_attachedFirst
    (held : ∀ loop, lastAttached setup.calls = some loop → setup.heldLoop = some loop) :
    setup.heldLoop = setup.attachedFirst.heldLoop := by
  rw [heldLoop_attachedFirst]
  cases attached : lastAttached setup.calls with
  | some loop => rw [held loop attached, Option.some_or]
  | none =>
      have before : lastAttached setup.before = none := by
        simp only [calls, lastAttached_append, Option.or_eq_none_iff] at attached
        exact attached.2
      rw [heldLoop, before, Option.none_or]

theorem invoke_eq_of_heldLoop_eq (same : setup.heldLoop = setup.attachedFirst.heldLoop) :
    setup.invoke react behaviour world = setup.attachedFirst.invoke react behaviour world := by
  rw [invoke, invoke, wrapper_eq, wrapper_eq, configured_attachedFirst, same]
  rfl

theorem scheduled_invoke (coroutine : Coroutine) :
    (setup.invoke react (.returnsCoroutine coroutine) world).2.scheduled =
      world.scheduled ++ (setup.heldLoop.map fun loop => (loop, coroutine)).toList := by
  rw [invoke, (settle_coroutine react _ coroutine _).1, wrapper_eq, Registration.loop_wrapper]

end Setup

/-- A registered callback behaves as if the loop had been attached first exactly
when it hands back no coroutine or was registered with a loop in place and no other is
attached in the end. -/
theorem asIfAttachedFirst_iff (setup : Setup) (react : Reactions) (behaviour : Behaviour)
    (world : World) :
    setup.AsIfAttachedFirst react behaviour world ↔
      ∀ coroutine, behaviour = .returnsCoroutine coroutine →
        ∃ loop, setup.heldLoop = some loop ∧
          ∀ attached, lastAttached setup.calls = some attached → attached = loop := by
  constructor
  · intro asIf coroutine behaves
    subst behaves
    obtain ⟨loop, left, scheduled⟩ := (asIf.2 coroutine rfl).1
    rw [setup.scheduled_invoke] at scheduled
    have held : setup.heldLoop = some loop := by
      cases held : setup.heldLoop with
      | none => simp [held] at scheduled
      | some other => simpa [held] using scheduled
    refine ⟨loop, held, ?_⟩
    intro attached last
    rw [setup.loop_configured, last, Option.some_or] at left
    exact Option.some.inj left
  · intro held
    by_cases handsBack : ∃ coroutine, behaviour = .returnsCoroutine coroutine
    · obtain ⟨coroutine, rfl⟩ := handsBack
      obtain ⟨loop, inPlace, last⟩ := held coroutine rfl
      constructor
      · apply setup.invoke_eq_of_heldLoop_eq react _ world
        apply setup.heldLoop_eq_attachedFirst
        intro attached attachedLast
        rw [last attached attachedLast, inPlace]
      · intro other behaves
        cases behaves
        constructor
        · refine ⟨loop, setup.loop_configured_of_held inPlace last, ?_⟩
          simp [setup.scheduled_invoke, inPlace]
        · apply (settle_coroutine react _ coroutine _).2
          rw [setup.wrapper_eq, Registration.loop_wrapper, inPlace]
          exact Option.some_ne_none loop
    · have finished : ∀ coroutine, behaviour ≠ .returnsCoroutine coroutine :=
        fun coroutine behaves => handsBack ⟨coroutine, behaves⟩
      constructor
      · rw [Setup.invoke, Setup.invoke, setup.wrapper_eq, Setup.wrapper_eq,
          setup.configured_attachedFirst]
        exact invokeAndSettle_wrapper_of_not_coroutine react _ _ _ _ _ _ finished
      · intro coroutine behaves
        exact absurd behaves (finished coroutine)

/-- An async handler registered before its loop is attached is handed back to the
native side as a coroutine that no loop runs. -/
theorem asIfAttachedFirst_not_always :
    ¬ ∀ (setup : Setup) (react : Reactions) (behaviour : Behaviour) (world : World),
      setup.AsIfAttachedFirst react behaviour world := by
  intro every
  have placed := (every ⟨[], .onPayload, none, [.attachEventLoop (some 1) none none]⟩
    (fun _ _ => .ok ⟨⟩) (.returnsCoroutine ⟨1, .ok .none, true⟩) {}).2 ⟨1, .ok .none, true⟩ rfl
  exact absurd placed.2 (by decide)

end ObscuraProto
