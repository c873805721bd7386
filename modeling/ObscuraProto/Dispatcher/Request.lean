import ObscuraProto.Dispatcher.Reporting
import ObscuraProto.Payload.Builder
import ObscuraProto.Unpacking.Handler

/-!
# Request callbacks

`on_request` registers the dispatcher's waiting wrapper around the request
unpacking wrapper.  The native side stores it as a function returning a
`Payload`, so what it returns must be one.
-/

namespace ObscuraProto

/-- `type(value)` as printed. -/
def PyValue.typeName : PyValue → String
  | none => "<class 'NoneType'>"
  | bool _ => "<class 'bool'>"
  | int _ => "<class 'int'>"
  | float _ => "<class 'float'>"
  | str _ | surrogates _ => "<class 'str'>"
  | bytes _ => "<class 'bytes'>"
  | list _ => "<class 'list'>"
  | connectionHdl _ => "<class '_obscuraproto.ConnectionHdl'>"
  | payload _ => "<class '_obscuraproto.Payload'>"
  | payloadReader => "<class '_obscuraproto.PayloadReader'>"
  | object .. => "<class 'object'>"

namespace RequestWrapper

/-- The reply sent when a request does not fit the handler's signature. -/
def errorPayload (core : Core) (e : PyExc) : Except PyExc PyValue := do
  let builder ← PayloadBuilder.addParam core ⟨0x0000, []⟩ (.str s!"Error: {e.str}")
  return .payload builder.build

def notAPayload (wrapper : RequestWrapper) (response : PyValue) : PyExc :=
  wrapper.handler.namedError fun name =>
    .typeError (s!"Request handler '{name}' must return a " ++
      s!"'Payload' object, but returned {response.typeName}")

/-- `unpacking_request_wrapper(*args)`, with `body` the code of the handler. -/
def call (core : Core) (wrapper : RequestWrapper) (body : Kwargs → Py Returned)
    (nativeHdl : PyValue) (reader : PayloadReader) : Py Returned :=
  match wrapper.arguments core nativeHdl reader with
  | .error e => do
      -- The log line needs the name; an error here leaves the `except` clause.
      let _ ← Py.ofExcept wrapper.handler.name
      return .value (← Py.ofExcept (errorPayload core e))
  | .ok handlerKwargs => do
      let bound ← Py.ofExcept (wrapper.handler.sig.bindKeywords handlerKwargs)
      match ← body bound with
      -- A coroutine is left to the dispatcher, its result unchecked.
      | .coroutine coroutine => return .coroutine coroutine
      | .value response =>
          if response.isPayload then return .value response
          else throw (wrapper.notAPayload response)

end RequestWrapper

/-- What `on_request` hands to the native side. -/
structure RequestCallback where
  wrapper : Wrapper
  request : RequestWrapper

/-- `on_request` and `on_anon_request`: register a handler on an endpoint, from
code that may have a running loop. -/
def onRequest (handler : Handler) (receivesHdlFromNative : Bool) (running : Option LoopId)
    (dispatcher : Dispatcher) : Dispatcher × RequestCallback :=
  let request := createRequestUnpackingHandler handler receivesHdlFromNative
  match dispatcher.wrap running with
  | (dispatcher, wrapper) => (dispatcher, ⟨wrapper, request⟩)

def RequestCallback.invoke (core : Core) (handlers : HandlerId → PyExc → Py PUnit)
    (callback : RequestCallback) (body : Kwargs → Py Returned) (nativeHdl : PyValue)
    (reader : PayloadReader) : Py Returned :=
  callback.wrapper.invoke handlers (callback.request.call core body nativeHdl reader)

/-! ## The value handed to the native side -/

/-- The native side got a `Payload` or an exception. -/
def PayloadOrRaise : Except PyExc Returned → Prop
  | .error _ => True
  | .ok (.value value) => value.isPayload = true
  | .ok (.coroutine _) => False

instance : DecidablePred PayloadOrRaise
  | .error _ => isTrue trivial
  | .ok (.value value) => inferInstanceAs (Decidable (value.isPayload = true))
  | .ok (.coroutine _) => isFalse id

/-- The error handler set at invocation does not swallow the exception. -/
def PassesOn (react : Reactions) (errorHandler : Option HandlerId) (e : PyExc) : Prop :=
  ∀ handler, errorHandler = some handler → ∃ raised, react handler e = .error raised

/-- Awaited by the dispatcher, the coroutine ends in a payload, or in a failure on which
an error handler raises, and raises again on what it raised itself. -/
def Coroutine.Answers (react : Reactions) (errorHandler : Option HandlerId)
    (resultTimeout : Seconds) (coroutine : Coroutine) : Prop :=
  match coroutine.waitOutcome resultTimeout with
  | .ok response => response.isPayload = true
  | .error e => ∀ handler, errorHandler = some handler →
      ∃ raised, react handler e = .error raised ∧ ∃ again, react handler raised = .error again

section Condition

variable (core : Core) (wrapper : RequestWrapper) (nativeHdl : PyValue) (reader : PayloadReader)

/-- What the parameters of the handler are read as. -/
def RequestWrapper.reads : Except PyExc Kwargs :=
  decodeRequestParams core wrapper.unpackParams reader.remaining

/-- The handler is called with these keywords. -/
def RequestWrapper.binds (read : Kwargs) : Except PyExc Kwargs :=
  wrapper.handler.sig.bindKeywords
    (hdlKwargs wrapper.hdlParam wrapper.receivesHdlFromNative nativeHdl ++ read)

/-- Condition under which a request is answered with a payload or an exception: the
error handler swallows no failure, and a coroutine has a loop to run on and is not left
without a payload. -/
structure RequestWrapper.Answers (body : Kwargs → Behaviour) (react : Reactions)
    (errorHandler : Option HandlerId) (loop : Option LoopId) (resultTimeout : Seconds) :
    Prop where
  /-- Nothing was read, and the handler has no name to log. -/
  nameless : ∀ e missing, wrapper.reads core reader = .error e →
    wrapper.handler.name = .error missing → PassesOn react errorHandler missing
  /-- Nothing was read, and the text of the error cannot be sent. -/
  unsent : ∀ e name raised, wrapper.reads core reader = .error e →
    wrapper.handler.name = .ok name → errorPayload core e = .error raised →
      PassesOn react errorHandler raised
  unbound : ∀ read e, wrapper.reads core reader = .ok read →
    wrapper.binds nativeHdl read = .error e → PassesOn react errorHandler e
  raised : ∀ read kwargs e, wrapper.reads core reader = .ok read →
    wrapper.binds nativeHdl read = .ok kwargs → body kwargs = .raises e →
      PassesOn react errorHandler e
  returned : ∀ read kwargs response, wrapper.reads core reader = .ok read →
    wrapper.binds nativeHdl read = .ok kwargs → body kwargs = .returns response →
      response.isPayload = true ∨ PassesOn react errorHandler (wrapper.notAPayload response)
  handedBack : ∀ read kwargs coroutine, wrapper.reads core reader = .ok read →
    wrapper.binds nativeHdl read = .ok kwargs → body kwargs = .returnsCoroutine coroutine →
      loop ≠ none ∧ coroutine.Answers react errorHandler resultTimeout

end Condition

theorem errorPayload_isPayload {core : Core} {e : PyExc} {reply : PyValue}
    (built : RequestWrapper.errorPayload core e = .ok reply) : reply.isPayload = true := by
  rw [RequestWrapper.errorPayload] at built
  cases added : PayloadBuilder.addParam core ⟨0x0000, []⟩ (.str s!"Error: {e.str}") with
  | error e => simp [added, bind, Except.bind] at built
  | ok builder =>
      simp only [added, bind, Except.bind, pure, Except.pure, Except.ok.injEq] at built
      exact built ▸ rfl

/-! ## What the unpacking wrapper comes to -/

namespace RequestWrapper

/-- The wrapper lets a coroutine pass and checks any other result. -/
def checked (wrapper : RequestWrapper) : Behaviour → Behaviour
  | .returns response =>
      if response.isPayload then .returns response
      else .raises (wrapper.notAPayload response)
  | other => other

variable {core : Core} {wrapper : RequestWrapper} {body : Kwargs → Behaviour}
  {nativeHdl : PyValue} {reader : PayloadReader} {e : PyExc} {read kwargs : Kwargs}

theorem arguments_of_reads (failed : wrapper.reads core reader = .error e) :
    wrapper.arguments core nativeHdl reader = .error e := by
  rw [arguments_eq, ← reads, failed]
  rfl

/-- A failed read of a handler without a name ends in the error of asking for it. -/
theorem call_of_nameless {missing : PyExc} (failed : wrapper.reads core reader = .error e)
    (nameless : wrapper.handler.name = .error missing) :
    wrapper.call core (fun kwargs => (body kwargs).callback) nativeHdl reader =
      (Behaviour.raises missing).callback := by
  rw [call, arguments_of_reads failed]
  simp only [nameless]
  rfl

theorem call_of_named {name : String} (failed : wrapper.reads core reader = .error e)
    (named : wrapper.handler.name = .ok name) :
    wrapper.call core (fun kwargs => (body kwargs).callback) nativeHdl reader =
      (match errorPayload core e with
        | .ok reply => Behaviour.returns reply
        | .error raised => .raises raised).callback := by
  rw [call, arguments_of_reads failed]
  simp only [named]
  cases errorPayload core e <;> rfl

theorem arguments_of_read (done : wrapper.reads core reader = .ok read) :
    wrapper.arguments core nativeHdl reader =
      .ok (hdlKwargs wrapper.hdlParam wrapper.receivesHdlFromNative nativeHdl ++ read) := by
  rw [arguments_eq, ← reads, done]
  rfl

theorem call_of_unbound (done : wrapper.reads core reader = .ok read)
    (unbound : wrapper.binds nativeHdl read = .error e) :
    wrapper.call core (fun kwargs => (body kwargs).callback) nativeHdl reader =
      (Behaviour.raises e).callback := by
  rw [binds] at unbound
  rw [call, arguments_of_read done]
  simp only [unbound]
  rfl

theorem call_of_bound (done : wrapper.reads core reader = .ok read)
    (bound : wrapper.binds nativeHdl read = .ok kwargs) :
    wrapper.call core (fun kwargs => (body kwargs).callback) nativeHdl reader =
      (wrapper.checked (body kwargs)).callback := by
  rw [binds] at bound
  rw [call, arguments_of_read done]
  funext world
  change Py.exec _ world = Py.exec _ world
  cases behaves : body kwargs with
  | raises e => simp [bound, behaves, Behaviour.callback, checked]
  | returnsCoroutine coroutine => simp [bound, behaves, Behaviour.callback, checked]
  | returns response =>
      cases typed : response.isPayload <;>
        simp [bound, behaves, typed, Behaviour.callback, checked]

end RequestWrapper

/-! ## What the dispatcher's wrapper makes of it -/

/-- Condition on what the unpacking wrapper comes to. -/
def Behaviour.Answers (react : Reactions) (errorHandler : Option HandlerId)
    (loop : Option LoopId) (resultTimeout : Seconds) : Behaviour → Prop
  | .returns response => response.isPayload = true
  | .raises e => PassesOn react errorHandler e
  | .returnsCoroutine coroutine => loop ≠ none ∧ coroutine.Answers react errorHandler resultTimeout

theorem RequestWrapper.isPayload_of_checked {wrapper : RequestWrapper} {behaviour : Behaviour}
    {response : PyValue} (returned : wrapper.checked behaviour = .returns response) :
    response.isPayload = true := by
  cases behaviour with
  | returnsCoroutine | raises => cases returned
  | returns other =>
      rw [checked] at returned
      split at returned
      · next typed =>
          cases returned
          exact typed
      · cases returned

/-- Whatever the reads and the handler do, the unpacking wrapper is a callback of one
behaviour, which returns no other value than a payload. -/
theorem RequestWrapper.exists_behaviour (core : Core) (wrapper : RequestWrapper)
    (body : Kwargs → Behaviour) (nativeHdl : PyValue) (reader : PayloadReader) :
    ∃ behaviour : Behaviour,
      wrapper.call core (fun kwargs => (body kwargs).callback) nativeHdl reader =
        behaviour.callback ∧
      (∀ response, behaviour = .returns response → response.isPayload = true) ∧
      ∀ react errorHandler loop resultTimeout,
        behaviour.Answers react errorHandler loop resultTimeout ↔
          wrapper.Answers core nativeHdl reader body react errorHandler loop resultTimeout := by
  cases done : wrapper.reads core reader with
  | error e =>
      cases named : wrapper.handler.name with
      | error missing =>
          refine ⟨_, call_of_nameless done named, nofun, ?_⟩
          intro react errorHandler loop resultTimeout
          constructor
          · intro passes
            constructor <;> grind [Behaviour.Answers]
          · intro answers
            exact answers.nameless e missing done named
      | ok name =>
          refine ⟨_, call_of_named done named, ?_, ?_⟩
          · intro response returned
            cases built : errorPayload core e with
            | error raised => simp [built] at returned
            | ok reply =>
                simp only [built] at returned
                cases returned
                exact errorPayload_isPayload built
          · intro react errorHandler loop resultTimeout
            cases built : errorPayload core e with
            | error raised =>
                constructor
                · intro passes
                  constructor <;> grind [Behaviour.Answers]
                · intro answers
                  exact answers.unsent e name raised done named built
            | ok reply =>
                have typed := errorPayload_isPayload built
                constructor
                · intro passes
                  constructor <;> grind
                · intro answers
                  exact typed
  | ok read =>
      cases binds : wrapper.binds nativeHdl read with
      | error e =>
          refine ⟨_, call_of_unbound done binds, nofun, ?_⟩
          intro react errorHandler loop resultTimeout
          constructor
          · intro passes
            constructor <;> grind [Behaviour.Answers]
          · intro answers
            exact answers.unbound read e done binds
      | ok kwargs =>
          refine ⟨_, call_of_bound done binds, fun _ => isPayload_of_checked, ?_⟩
          intro react errorHandler loop resultTimeout
          cases behaves : body kwargs with
          | raises e =>
              constructor
              · intro passes
                constructor <;> grind [Behaviour.Answers, checked]
              · intro answers
                exact answers.raised read kwargs e done binds behaves
          | returnsCoroutine coroutine =>
              constructor
              · intro passes
                constructor <;> grind [Behaviour.Answers, checked]
              · intro answers
                exact answers.handedBack read kwargs coroutine done binds behaves
          | returns response =>
              constructor
              · intro passes
                constructor <;> grind [Behaviour.Answers, checked]
              · intro answers
                have returned := answers.returned read kwargs response done binds behaves
                cases typed : response.isPayload with
                | true => simp [checked, typed, Behaviour.Answers]
                | false => simpa [checked, typed, Behaviour.Answers] using returned

section Invocation

variable (react : Reactions) (world : World)

theorem payloadOrRaise_forwarded_iff {absorbed : Returned} (e : PyExc)
    (untyped : ¬ PayloadOrRaise (.ok absorbed)) :
    PayloadOrRaise (forwarded react absorbed e world).1 ↔
      PassesOn react world.dispatcher.errorHandler e := by
  rw [forwarded, PassesOn]
  cases world.dispatcher.errorHandler with
  | none => simp [PayloadOrRaise]
  | some handler =>
      cases reaction : react handler e with
      | ok done => simpa [reaction, Except.map] using untyped
      | error raised => simp [PayloadOrRaise, reaction, Except.map]

/-- Without a loop the callback's value goes straight to the native side. -/
theorem payloadOrRaise_sync_iff (behaviour : Behaviour)
    (typed : ∀ response, behaviour = .returns response → response.isPayload = true)
    (resultTimeout : Seconds) :
    PayloadOrRaise (invokeAndSettle react.handlers .sync behaviour.callback world).1 ↔
      behaviour.Answers react world.dispatcher.errorHandler none resultTimeout := by
  cases behaviour with
  | returns response =>
      rw [settle_returns]
      exact Iff.rfl
  | returnsCoroutine coroutine =>
      rw [settle_sync_coroutine]
      simp [PayloadOrRaise, Behaviour.Answers]
  | raises e =>
      rw [settle_raises]
      exact payloadOrRaise_forwarded_iff react { world with inCallback := false } e
        Bool.false_ne_true

/-- With a loop the coroutine's value goes to the native side, and a failure
passes the error handler on its way. -/
theorem payloadOrRaise_withResult_iff (loop : LoopId) (resultTimeout : Seconds)
    (behaviour : Behaviour) :
    PayloadOrRaise (invokeAndSettle react.handlers (.withResult loop resultTimeout)
        behaviour.callback world).1 ↔
      behaviour.Answers react world.dispatcher.errorHandler (some loop) resultTimeout := by
  cases behaviour with
  | returns response =>
      rw [settle_returns]
      exact Iff.rfl
  | raises e =>
      rw [settle_raises]
      exact payloadOrRaise_forwarded_iff react { world with inCallback := false } e
        Bool.false_ne_true
  | returnsCoroutine coroutine =>
      rw [settle_withResult_coroutine]
      cases waited : coroutine.waitOutcome resultTimeout with
      | ok response => simp [PayloadOrRaise, Behaviour.Answers, Coroutine.Answers, waited]
      | error e =>
          cases set : world.dispatcher.errorHandler with
          | none =>
              simp [PayloadOrRaise, Behaviour.Answers, Coroutine.Answers, forwarded, World.waited,
                waited, set]
          | some handler =>
              cases reaction : react handler e with
              | ok done =>
                  simp [PayloadOrRaise, PyValue.isPayload, Behaviour.Answers, Coroutine.Answers,
                    forwarded, World.waited, Except.map, waited, set, reaction]
              | error raised =>
                  cases again : react handler raised <;>
                    simp [PayloadOrRaise, PyValue.isPayload, Behaviour.Answers,
                      Coroutine.Answers, forwarded, World.waited, Except.map, waited, set,
                      reaction, again]

/-- Either wrapper, around an unpacking wrapper that returns no other value than a
payload. -/
theorem payloadOrRaise_invoke_iff {core : Core} {handler : Handler} {receives : Bool}
    {running : Option LoopId} {dispatcher : Dispatcher} {body : Kwargs → Behaviour}
    {nativeHdl : PyValue} {reader : PayloadReader} {behaviour : Behaviour}
    (comesTo : (createRequestUnpackingHandler handler receives).call core
      (fun kwargs => (body kwargs).callback) nativeHdl reader = behaviour.callback)
    (typed : ∀ response, behaviour = .returns response → response.isPayload = true) :
    PayloadOrRaise ((RequestCallback.invoke core react.handlers
        (onRequest handler receives running dispatcher).2
        (fun kwargs => (body kwargs).callback) nativeHdl reader).exec world).1 ↔
      behaviour.Answers react world.dispatcher.errorHandler (dispatcher.detectLoop running).loop
        (dispatcher.detectLoop running).resultTimeout := by
  simp only [RequestCallback.invoke, onRequest, Dispatcher.wrap, comesTo]
  cases (dispatcher.detectLoop running).loop with
  | none => exact payloadOrRaise_sync_iff react world behaviour typed _
  | some loop => exact payloadOrRaise_withResult_iff react world loop _ behaviour

end Invocation

/-- A registered request callback hands back a payload or raises exactly when no failure
of the reads, of the call or of the handler is swallowed by the error handler, and a
coroutine has a loop and ends in a payload or a failure that is not swallowed. -/
theorem onRequest_payloadOrRaise_iff (core : Core) (handler : Handler)
    (receivesHdlFromNative : Bool) (running : Option LoopId) (dispatcher : Dispatcher)
    (body : Kwargs → Behaviour) (nativeHdl : PyValue) (reader : PayloadReader)
    (react : Reactions) (world : World) :
    PayloadOrRaise ((RequestCallback.invoke core react.handlers
        (onRequest handler receivesHdlFromNative running dispatcher).2
        (fun kwargs => (body kwargs).callback) nativeHdl reader).exec world).1 ↔
      (createRequestUnpackingHandler handler receivesHdlFromNative).Answers core nativeHdl
        reader body react world.dispatcher.errorHandler (dispatcher.detectLoop running).loop
        (dispatcher.detectLoop running).resultTimeout := by
  obtain ⟨behaviour, comesTo, typed, answers⟩ :=
    (createRequestUnpackingHandler handler receivesHdlFromNative).exists_behaviour core body
      nativeHdl reader
  rw [payloadOrRaise_invoke_iff react world comesTo typed]
  exact answers ..

/-- With an error handler that returns, a request handler that raises makes the
callback return `None`. -/
theorem onRequest_returns_none :
    ¬ ∀ (core : Core) (handler : Handler) (receivesHdlFromNative : Bool)
      (running : Option LoopId) (dispatcher : Dispatcher) (body : Kwargs → Behaviour)
      (nativeHdl : PyValue) (reader : PayloadReader) (react : Reactions) (world : World),
      PayloadOrRaise ((RequestCallback.invoke core react.handlers
        (onRequest handler receivesHdlFromNative running dispatcher).2
        (fun kwargs => (body kwargs).callback) nativeHdl reader).exec world).1 := by
  intro every
  have answer := every .littleEndian ⟨.ok "handle_request", ⟨[], by decide⟩⟩ true none {}
    (fun _ => .raises (.user "ValueError" "boom")) (.connectionHdl 1) (.new ⟨0x1002, []⟩)
    (fun _ _ => .ok ⟨⟩) { dispatcher := { errorHandler := some 3 } }
  exact absurd answer (by decide)

end ObscuraProto
