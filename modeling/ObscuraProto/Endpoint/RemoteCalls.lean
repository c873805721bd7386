import ObscuraProto.Bridge.Responses
import ObscuraProto.Dispatcher.Request
import ObscuraProto.Unpacking.RoundTrip

/-!
# Remote calls

A client sends requests and awaits their futures; the I/O thread of a server answers
them one at a time with what its request callbacks return.  The native side keeps the
number of a request with its response.
-/

namespace ObscuraProto

open Transition Processes

/-- A request handler with the endpoint's state at its registration. -/
structure RegisteredRequest where
  handler : Handler
  receivesHdlFromNative : Bool
  running : Option LoopId
  dispatcher : Dispatcher
  /-- What the body does for a request, given its keywords. -/
  body : FutureId → Kwargs → Behaviour

namespace RegisteredRequest

def callback (registered : RegisteredRequest) : RequestCallback :=
  (onRequest registered.handler registered.receivesHdlFromNative registered.running
    registered.dispatcher).2

/-- The loop the wrapper waits on. -/
def loop (registered : RegisteredRequest) : Option LoopId :=
  (registered.dispatcher.detectLoop registered.running).loop

def resultTimeout (registered : RegisteredRequest) : Seconds :=
  (registered.dispatcher.detectLoop registered.running).resultTimeout

end RegisteredRequest

/-- A server with one client. -/
structure RequestServer where
  core : Core
  /-- The handle of the connection. -/
  hdl : PyValue
  registered : Nat → Option RegisteredRequest
  react : Reactions

/-- The response that the native side takes from a callback. -/
def responseOf : Except PyExc Returned → Option Payload
  | .ok (.value (.payload payload)) => some payload
  | _ => none

/-- The I/O thread runs the callback of a request. -/
def RequestServer.answer (server : RequestServer) (world : World) (future : FutureId)
    (registered : RegisteredRequest) (request : Payload) : Except PyExc Returned × World :=
  invokeAndSettle server.react.handlers registered.callback.wrapper
    (registered.callback.request.call server.core
      (fun kwargs => (registered.body future kwargs).callback) server.hdl (.new request)) world

structure RemoteState where
  /-- The client. -/
  process : ProcessState := {}
  /-- The payload sent for every future. -/
  requests : List Payload := []
  /-- The requests that the server has not received. -/
  wire : List FutureId := []
  /-- The requests whose callbacks were run. -/
  invoked : List FutureId := []
  responses : List (FutureId × Payload) := []
  /-- The server. -/
  world : World := {}
  deriving DecidableEq

inductive RemoteLabel where
  /-- The native request of the client returns a future at this address. -/
  | send (address : Address) (request : Payload)
  /-- The server receives the next request. -/
  | serve
  /-- The response to a request arrives at the client. -/
  | respond (future : FutureId)
  /-- The request fails on the native side. -/
  | fail (future : FutureId) (e : PyExc)
  /-- Anything else the client does. -/
  | client (label : ProcessLabel)
  /-- The error handler of the server is set. -/
  | setErrorHandler (handler : Option HandlerId)

/-- Steps of the client that the native side has no part in. -/
def ProcessLabel.isLocal : ProcessLabel → Bool
  | .create _ | .arrive .. => false
  | .collect _ | .call .. | .submit .. | .act .. | .publish | .tick _ => true

namespace RemoteState

def step (server : RequestServer) (state : RemoteState) : RemoteLabel → Option RemoteState
  | .send address request =>
      (state.process.step (.create address)).map fun process =>
        { state with
          process
          requests := state.requests ++ [request]
          wire := state.wire ++ [state.requests.length] }
  | .serve =>
      match state.wire with
      | future :: wire =>
          match state.requests[future]? with
          | some request =>
              match server.registered request.opCode with
              | some registered =>
                  match server.answer state.world future registered request with
                  | (outcome, world) =>
                      some { state with
                        wire
                        world
                        invoked := state.invoked ++ [future]
                        responses := state.responses ++
                          ((responseOf outcome).map fun response => (future, response)).toList }
              | none => some { state with wire }
          | none => none
      | [] => none
  | .respond future =>
      match state.responses.find? fun entry => entry.1 == future with
      | some (_, response) =>
          (state.process.step (.arrive future (.ok response))).map fun process =>
            { state with process }
      | none => none
  | .fail future e =>
      (state.process.step (.arrive future (.error e))).map fun process => { state with process }
  | .client label =>
      if label.isLocal then
        (state.process.step label).map fun process => { state with process }
      else none
  | .setErrorHandler handler =>
      some { state with world :=
        { state.world with dispatcher := state.world.dispatcher.setErrorHandler handler } }

end RemoteState

def remoteCalls (server : RequestServer) : System RemoteState RemoteLabel where
  initial := {}
  step := RemoteState.step server

/-! ## The server's responses -/

/-- The behaviour ends in this response. -/
def Behaviour.Gives (loop : Option LoopId) (resultTimeout : Seconds) (response : Payload) :
    Behaviour → Prop
  | .returns value => value = .payload response
  | .returnsCoroutine coroutine =>
      loop ≠ none ∧ coroutine.waitOutcome resultTimeout = .ok (.payload response)
  | .raises _ => False

section Responses

variable {react : Reactions} {world : World} {response : Payload} {behaviour : Behaviour}

@[simp] theorem responseOf_eq_some {outcome : Except PyExc Returned} :
    responseOf outcome = some response ↔ outcome = .ok (.value (.payload response)) := by
  constructor
  · intro given
    simp only [responseOf] at given
    split at given
    · cases given; rfl
    · cases given
  · rintro rfl
    rfl

/-- What an error handler leaves is no response. -/
theorem responseOf_forwarded (e : PyExc) :
    responseOf (forwarded react (.value .none) e world).1 = none := by
  rw [forwarded]
  cases world.dispatcher.errorHandler with
  | none => rfl
  | some handler =>
      cases reaction : react handler e <;> simp [responseOf, reaction, Except.map]

/-- The native side gets a response exactly when the behaviour ends in it. -/
theorem responseOf_settle_iff (loop : Option LoopId) (resultTimeout : Seconds) :
    responseOf (invokeAndSettle react.handlers
        (match loop with
        | some loop => .withResult loop resultTimeout
        | none => .sync) behaviour.callback world).1 = some response ↔
      behaviour.Gives loop resultTimeout response := by
  cases behaviour with
  | returns value =>
      rw [settle_returns]
      cases loop <;> simp [Behaviour.Gives, Wrapper.passed]
  | raises e =>
      rw [settle_raises]
      cases loop <;> simp only [Wrapper.absorbed, responseOf_forwarded] <;>
        simp [Behaviour.Gives]
  | returnsCoroutine coroutine =>
      cases loop with
      | none =>
          simp only [settle_sync_coroutine]
          simp [Behaviour.Gives]
      | some loop =>
          simp only [settle_withResult_coroutine]
          cases waited : coroutine.waitOutcome resultTimeout with
          | ok value => simp [Behaviour.Gives, waited]
          | error e =>
              simp only [Behaviour.Gives, waited, reduceCtorEq, and_false, iff_false]
              cases forwards : forwarded react (.value .none) e (world.waited loop coroutine) with
              | mk outcome after =>
                  have absent := congrArg (responseOf ·.1) forwards
                  rw [responseOf_forwarded] at absent
                  cases outcome with
                  | ok absorbed =>
                      intro given
                      cases absent.trans given
                  | error raised => simp only [responseOf_forwarded, reduceCtorEq, not_false_iff]

end Responses

namespace RequestServer

variable {server : RequestServer}

/-- The response to a request: what the handler ends in on the keywords that were read, or
the error payload of a handler with a name where they could not be. -/
def Replies (server : RequestServer) (registered : RegisteredRequest) (future : FutureId)
    (request response : Payload) : Prop :=
  match (createRequestUnpackingHandler registered.handler
      registered.receivesHdlFromNative).arguments server.core server.hdl (.new request) with
  | .error e =>
      (∃ name, registered.handler.name = .ok name) ∧
        RequestWrapper.errorPayload server.core e = .ok (.payload response)
  | .ok kwargs =>
      registered.handler.sig.bindKeywords kwargs = .ok kwargs ∧
        (registered.body future kwargs).Gives registered.loop registered.resultTimeout response

theorem responseOf_answer_iff (world : World) (future : FutureId) (registered : RegisteredRequest)
    (request response : Payload) :
    responseOf (server.answer world future registered request).1 = some response ↔
      server.Replies registered future request response := by
  have wraps : registered.callback.wrapper =
      match registered.loop with
      | some loop => .withResult loop registered.resultTimeout
      | none => .sync := by
    simp only [RegisteredRequest.callback, onRequest, Dispatcher.wrap, RegisteredRequest.loop,
      RegisteredRequest.resultTimeout]
    cases (registered.dispatcher.detectLoop registered.running).loop <;> rfl
  have requests : registered.callback.request =
      createRequestUnpackingHandler registered.handler registered.receivesHdlFromNative := rfl
  rw [answer, wraps, requests, Replies]
  have handler := createRequestUnpackingHandler_handler registered.handler
    registered.receivesHdlFromNative
  generalize createRequestUnpackingHandler registered.handler registered.receivesHdlFromNative =
    wrapper at handler
  cases done : wrapper.reads server.core (.new request) with
  | error e =>
      simp only [RequestWrapper.arguments_of_reads done]
      rw [← handler]
      cases named : wrapper.handler.name with
      | error missing =>
          rw [RequestWrapper.call_of_nameless done named, responseOf_settle_iff]
          simp [Behaviour.Gives]
      | ok name =>
          rw [RequestWrapper.call_of_named done named, responseOf_settle_iff]
          cases built : RequestWrapper.errorPayload server.core e <;> simp [Behaviour.Gives]
  | ok read =>
      simp only [RequestWrapper.arguments_of_read done]
      rw [← handler]
      cases binds : wrapper.binds server.hdl read with
      | error e =>
          rw [RequestWrapper.call_of_unbound done binds, responseOf_settle_iff]
          rw [RequestWrapper.binds] at binds
          simp [binds, Behaviour.Gives]
      | ok kwargs =>
          rw [RequestWrapper.call_of_bound done binds, responseOf_settle_iff]
          rw [RequestWrapper.binds] at binds
          cases Signature.bindKeywords_eq binds
          simp only [binds, true_and]
          cases behaves : registered.body future _ with
          | raises | returnsCoroutine => rfl
          | returns value =>
              cases typed : value.isPayload with
              | true => simp [RequestWrapper.checked, typed]
              | false =>
                  simp only [RequestWrapper.checked, typed, Bool.false_eq_true, ↓reduceIte,
                    Behaviour.Gives, false_iff]
                  rintro rfl
                  cases typed

end RequestServer

/-! ## The client's futures -/

/-- Only an arrival resolves a future. -/
theorem SettlementState.reply_of_step {state next : SettlementState} {label : SettlementLabel}
    (taken : settlement.step state label = some next) :
    next.await.reply = state.await.reply ∨
      ∃ reply, label = .await (.arrive reply) ∧ next.await.reply = some reply := by
  cases label with
  | submit id raises =>
      obtain ⟨-, same⟩ := step_submit taken
      rw [same]
      exact .inl rfl
  | await label =>
      obtain ⟨after, steps, same⟩ := step_await taken
      rw [same]
      cases steps with
      | arrive => exact .inr ⟨_, rfl, rfl⟩
      | start | publish | tick => exact .inl rfl
      | act found acts =>
          cases acts with
          | begin | pollReady | pollPending | pollFails | sleep | giveUp | claim | refuse | get
          | getInvalid | post | resume | expire | cancel => exact .inl rfl

namespace ProcessState

variable {state next : ProcessState} {label : ProcessLabel} {future : FutureId}

/-- Only a new request adds a future. -/
theorem length_of_step (stepped : requestProcess.step state label = some next)
    (old : ∀ address, label ≠ .create address) : next.objects.length = state.objects.length := by
  cases processSteps_of_step stepped with
  | @create address => exact absurd rfl (old address)
  | collect | call | submit | act | publish | arrive => exact List.length_set ..
  | tick => exact List.length_map ..

theorem length_of_create {address : Address}
    (stepped : requestProcess.step state (.create address) = some next) :
    next.objects.length = state.objects.length + 1 := by
  cases processSteps_of_step stepped with
  | create => exact List.length_append

/-- A future that is resolved was so before, or its response has just arrived. -/
theorem reply_of_step (reached : requestProcess.Reached System.Free state)
    (stepped : requestProcess.step state label = some next) {later : FutureObject} {reply : Reply}
    (found : next.objects[future]? = some later)
    (resolved : later.requests.await.reply = some reply) :
    (∃ object, state.objects[future]? = some object ∧
        object.requests.await.reply = some reply) ∨
      label = .arrive future reply := by
  cases known : state.objects[future]? with
  | some object =>
      obtain ⟨after, there, changed⟩ := requests_of_step (coherent_of_reached reached) stepped known
      rw [found] at there
      cases there
      rcases changed with same | ⟨taken, projects, stepped⟩
      · exact .inl ⟨object, rfl, same ▸ resolved⟩
      · rcases SettlementState.reply_of_step stepped with same | ⟨arrived, rfl, same⟩
        · exact .inl ⟨object, rfl, same ▸ resolved⟩
        · rw [resolved] at same
          cases same
          cases projects
          exact .inr rfl
  | none =>
      have fresh : state.objects.length ≤ future := List.getElem?_eq_none_iff.mp known
      have inside := (List.getElem?_eq_some_iff.mp found).1
      cases processSteps_of_step stepped with
      | create =>
          rcases of_getElem?_append found with before | ⟨-, rfl⟩
          · rw [known] at before
            cases before
          · cases resolved
      | collect | call | submit | act | publish | arrive =>
          rw [List.length_set] at inside
          exact absurd inside (Nat.not_lt.mpr fresh)
      | tick =>
          rw [List.length_map] at inside
          exact absurd inside (Nat.not_lt.mpr fresh)

end ProcessState

/-! ## Requests and their responses -/

namespace RemoteState

variable {server : RequestServer} {state next : RemoteState}

/-- A response was given to the request it is for. -/
def Answered (server : RequestServer) (state : RemoteState) (future : FutureId)
    (response : Payload) : Prop :=
  future ∈ state.invoked ∧ ∃ request registered, state.requests[future]? = some request ∧
    server.registered request.opCode = some registered ∧
      server.Replies registered future request response

/-- What holds between the client, the messages and the server. -/
structure Linked (server : RequestServer) (state : RemoteState) : Prop where
  client : requestProcess.Reached System.Free state.process
  sent : state.requests.length = state.process.objects.length
  known : ∀ future ∈ state.invoked ++ state.wire, future < state.requests.length
  once : (state.invoked ++ state.wire).Nodup
  answered : ∀ entry ∈ state.responses, state.Answered server entry.1 entry.2
  arrived : ∀ (future : FutureId) (object : FutureObject) (response : Payload),
    state.process.objects[future]? = some object →
      object.requests.await.reply = some (.ok response) → (future, response) ∈ state.responses

theorem Linked.send (linked : state.Linked server) {address : Address} {request : Payload}
    {process : ProcessState}
    (taken : requestProcess.step state.process (.create address) = some process) :
    Linked server { state with
      process
      requests := state.requests ++ [request]
      wire := state.wire ++ [state.requests.length] } where
  client := linked.client.take _ trivial taken
  sent := by simp [ProcessState.length_of_create taken, linked.sent]
  known future member := by
    rw [← List.append_assoc] at member
    rw [List.length_append, List.length_singleton]
    rcases List.mem_append.mp member with earlier | last
    · exact Nat.lt_succ_of_lt (linked.known future earlier)
    · exact List.mem_singleton.mp last ▸ Nat.lt_succ_self _
  once := by
    rw [← List.append_assoc]
    refine List.nodup_append.mpr ⟨linked.once, List.nodup_singleton _, ?_⟩
    intro future member other last
    rw [List.mem_singleton.mp last]
    exact Nat.ne_of_lt (linked.known future member)
  answered entry member := by
    obtain ⟨invoked, request, registered, found, rest⟩ := linked.answered entry member
    refine ⟨invoked, request, registered, ?_, rest⟩
    rw [List.getElem?_append_left (List.getElem?_eq_some_iff.mp found).1, found]
  arrived future object response found resolved := by
    rcases ProcessState.reply_of_step linked.client taken found resolved with
      ⟨before, there, same⟩ | same
    · exact linked.arrived future before response there same
    · cases same

theorem Linked.serve (linked : state.Linked server) {future : FutureId} {wire : List FutureId}
    {request : Payload} {registered : RegisteredRequest} (received : state.wire = future :: wire)
    (found : state.requests[future]? = some request)
    (handled : server.registered request.opCode = some registered) (world : World) :
    Linked server { state with
      wire
      world
      invoked := state.invoked ++ [future]
      responses := state.responses ++
        ((responseOf (server.answer state.world future registered request).1).map fun response =>
          (future, response)).toList } where
  client := linked.client
  sent := linked.sent
  known := by
    have known := linked.known
    rwa [received, List.append_cons] at known
  once := by
    have once := linked.once
    rwa [received, List.append_cons] at once
  answered entry member := by
    rcases List.mem_append.mp member with earlier | last
    · obtain ⟨invoked, rest⟩ := linked.answered entry earlier
      exact ⟨List.mem_append_left _ invoked, rest⟩
    · obtain ⟨response, given, same⟩ := Option.map_eq_some_iff.mp (Option.mem_toList.mp last)
      rw [← same]
      exact ⟨by simp, request, registered, found, handled,
        (RequestServer.responseOf_answer_iff _ _ _ _ _).mp given⟩
  arrived other object response known resolved :=
    List.mem_append_left _ (linked.arrived other object response known resolved)

/-- A request without a handler is left unanswered. -/
theorem Linked.drop (linked : state.Linked server) {future : FutureId} {wire : List FutureId}
    (received : state.wire = future :: wire) : Linked server { state with wire } := by
  have fewer : (state.invoked ++ wire).Sublist (state.invoked ++ state.wire) :=
    received ▸ (List.sublist_cons_self future wire).append_left state.invoked
  exact
    { client := linked.client
      sent := linked.sent
      known := fun other member => linked.known other (fewer.subset member)
      once := linked.once.sublist fewer
      answered := linked.answered
      arrived := linked.arrived }

/-- The client goes on; a response comes from the server. -/
theorem Linked.proceed (linked : state.Linked server) (label : ProcessLabel)
    {process : ProcessState} (taken : requestProcess.step state.process label = some process)
    (old : ∀ address, label ≠ .create address)
    (given : ∀ future response, label = .arrive future (.ok response) →
      (future, response) ∈ state.responses) :
    Linked server { state with process } where
  client := linked.client.take label trivial taken
  sent := linked.sent.trans (ProcessState.length_of_step taken old).symm
  known := linked.known
  once := linked.once
  answered := linked.answered
  arrived future object response found resolved := by
    rcases ProcessState.reply_of_step linked.client taken found resolved with
      ⟨before, there, same⟩ | arrives
    · exact linked.arrived future before response there same
    · exact given future response arrives

theorem Linked.step {label : RemoteLabel} (linked : state.Linked server)
    (taken : (remoteCalls server).step state label = some next) : next.Linked server := by
  cases label with
  | send address request =>
      obtain ⟨process, stepped, rfl⟩ := Option.map_eq_some_iff.mp taken
      exact linked.send stepped
  | serve =>
      simp only [remoteCalls, RemoteState.step] at taken
      split at taken
      · next future wire received =>
          split at taken
          · next request found =>
              split at taken
              · next registered handled =>
                  cases taken
                  exact linked.serve received found handled _
              · cases taken
                exact linked.drop received
          · cases taken
      · cases taken
  | respond future =>
      simp only [remoteCalls, RemoteState.step] at taken
      split at taken
      · next known response found =>
          obtain ⟨process, stepped, rfl⟩ := Option.map_eq_some_iff.mp taken
          apply linked.proceed (.arrive future (.ok response)) stepped (fun _ => nofun)
          intro other arrived same
          cases same
          have member := List.mem_of_find?_eq_some found
          have same := List.find?_some found
          rwa [← beq_iff_eq.mp same]
      · cases taken
  | fail future e =>
      obtain ⟨process, stepped, rfl⟩ := Option.map_eq_some_iff.mp taken
      exact linked.proceed (.arrive future (.error e)) stepped (fun _ => nofun) (fun _ _ => nofun)
  | client label =>
      simp only [remoteCalls, RemoteState.step, Option.ite_none_right_eq_some] at taken
      obtain ⟨isLocal, taken⟩ := taken
      obtain ⟨process, stepped, rfl⟩ := Option.map_eq_some_iff.mp taken
      apply linked.proceed label stepped
      · rintro address rfl
        cases isLocal
      · rintro future response rfl
        cases isLocal
  | setErrorHandler handler =>
      cases taken
      exact ⟨linked.client, linked.sent, linked.known, linked.once, linked.answered,
        linked.arrived⟩

theorem linked_of_reached {allowed : RemoteState → RemoteLabel → Prop}
    (reached : (remoteCalls server).Reached allowed state) : state.Linked server := by
  apply reached.invariant (Linked server)
  · exact ⟨.refl, rfl, nofun, List.nodup_nil, nofun, nofun⟩
  · intro state label next linked _ taken
    exact linked.step taken

end RemoteState

/-- A request handler gets the values that were sent as its keywords. -/
theorem Signature.Reached.arguments_of_built {core : Core} (keeps : core.Keeps) {handler : Handler}
    {receives : Bool} {values : List PyValue} (reached : handler.sig.Reached receives values)
    (carries : handler.sig.Carries values)
    (hinted : ∀ param ∈ handler.sig.params, param.hinted = true) (hdl : PyValue)
    {request : Payload} (built : buildPayload core request.opCode values = .ok request) :
    (createRequestUnpackingHandler handler receives).arguments core hdl (.new request) =
      .ok (handler.sig.sent hdl values) := by
  obtain ⟨payload, same, read⟩ :=
    keeps.buildPayload_decodes carries.hints reached.values request.opCode
  rw [built] at same
  cases same
  rw [RequestWrapper.arguments_eq, createRequestUnpackingHandler_eq carries.leading
    carries.noPayload reached.hdl hinted,
    decodeRequestParams_eq (ne_payloadReader_of_hints carries.hints)]
  simp only [PayloadReader.remaining, PayloadReader.new, List.drop_zero, read]
  rw [carries.hdlKwargs_eq hdl reached.hdl]
  rfl

/-- A call that returned with a response to its own request. -/
structure RemoteState.Exchanged (server : RequestServer) (state : RemoteState) (future : FutureId)
    (requests : AwaitState) (id : CallId) (response : Payload) : Prop where
  /-- The callback ran once for the request. -/
  invoked : state.invoked.count future = 1
  replied : ∃ request registered, state.requests[future]? = some request ∧
    server.registered request.opCode = some registered ∧
      server.Replies registered future request response ∧
      -- The handler was called with the values that were put into the request.
      ∀ values, buildPayload server.core request.opCode values = .ok request →
        registered.handler.sig.Carries values →
        registered.handler.sig.Reached registered.receivesHdlFromNative values →
        (∀ param ∈ registered.handler.sig.params, param.hinted = true) →
          (registered.body future (registered.handler.sig.sent server.hdl values)).Gives
            registered.loop registered.resultTimeout response
  alone : ∀ (other : CallId) (rival : Call) (another : Payload), other ≠ id →
    requests.calls[other]? = some rival → rival.ending ≠ some (.returned another)

/-- What a caller of `async_request` gets is the response of the handler to its request,
which ran once, on the values that were sent. -/
theorem remoteCalls_exchanged (server : RequestServer) (keeps : server.core.Keeps)
    (state : RemoteState) (reached : (remoteCalls server).Reached System.Free state)
    (future : FutureId) (object : FutureObject) (id : CallId) (call : Call) (response : Payload)
    (found : state.process.objects[future]? = some object)
    (known : object.requests.await.calls[id]? = some call)
    (returned : call.ending = some (.returned response)) :
    state.Exchanged server future object.requests.await id response := by
  have linked := RemoteState.linked_of_reached reached
  have running := ProcessState.await_of_mem linked.client (List.mem_of_getElem? found)
  obtain ⟨got, resolved⟩ := AwaitState.get_of_returned running known returned
  have arrived := linked.arrived future object response found resolved
  obtain ⟨invoked, request, registered, sent, handled, replies⟩ := linked.answered _ arrived
  constructor
  · exact List.count_eq_one_of_mem (List.nodup_append.mp linked.once).1 invoked
  · refine ⟨request, registered, sent, handled, replies, ?_⟩
    intro values built carries reaches hinted
    have arguments := reaches.arguments_of_built keeps carries hinted server.hdl built
    rw [RequestServer.Replies, arguments] at replies
    exact replies.2
  · intro other rival another apart there again
    obtain ⟨gotToo, -⟩ := AwaitState.get_of_returned running there again
    exact apart ((AwaitState.ownership_of_reached running).unique other id (.inl gotToo) (.inl got))

/-- `def handle_sum_request(hdl: ConnectionHdl, a: uint, b: uint) -> Payload`. -/
def sumHandler : Handler where
  name := .ok "handle_sum_request"
  sig := ⟨[{ name := "hdl", annotation := .connectionHdl }, { name := "a", annotation := .uint },
    { name := "b", annotation := .uint }], by decide⟩

/-- A server of sums. -/
def sumServer : RequestServer where
  core := .littleEndian
  hdl := .connectionHdl 7
  registered opCode :=
    if opCode = 0x1002 then
      some
        { handler := sumHandler
          receivesHdlFromNative := true
          running := none
          dispatcher := {}
          body := fun _ kwargs =>
            match kwargs with
            | [_, (_, .int a), (_, .int b)] =>
                match buildPayload .littleEndian 0x1003 [.int (a + b)] with
                | .ok response => .returns (.payload response)
                | .error e => .raises e
            | _ => .returns .none }
    else none
  react _ _ := .ok ()

/-- Two requests for a sum; the response to the second is awaited first. -/
theorem remoteCalls_exchanged_sum :
    ∃ state object call, (remoteCalls sumServer).Reached System.Free state ∧
      state.process.objects[1]? = some object ∧ object.requests.await.calls[0]? = some call ∧
        call.ending = some (.returned ⟨0x1003, [[7]]⟩) ∧
        state.Exchanged sumServer 1 object.requests.await 0 ⟨0x1003, [[7]]⟩ := by
  have ran : (((remoteCalls sumServer).run System.Free (remoteCalls sumServer).initial
      [.send 5 ⟨0x1002, [[1], [2]]⟩, .client (.call 0 "async_request" none),
        .client (.submit (0, 0) false), .send 6 ⟨0x1002, [[3], [4]]⟩,
        .client (.call 1 "async_request" none), .client (.submit (1, 0) false), .serve, .serve,
        .client (.act (0, 0) .begin), .client (.act (1, 0) .begin), .respond 1,
        .client (.act (1, 0) (.poll (.ok true))), .client (.act (1, 0) .claim),
        .client (.act (1, 0) .get), .client (.act (1, 0) .post), .client .publish,
        .client (.act (1, 0) .resume)]).map fun state =>
          state.process.objects[1]?.bind fun object =>
            object.requests.await.calls[0]?.bind (·.ending)) =
      some (some (.returned ⟨0x1003, [[7]]⟩)) := by decide +kernel
  obtain ⟨state, taken, observed⟩ := Option.map_eq_some_iff.mp ran
  obtain ⟨object, found, observed⟩ := Option.bind_eq_some_iff.mp observed
  obtain ⟨call, known, returned⟩ := Option.bind_eq_some_iff.mp observed
  have reached := System.along_of_run taken
  exact ⟨state, object, call, reached, found, known, returned,
    remoteCalls_exchanged sumServer littleEndian_keeps state reached 1 object 0 call _ found known
      returned⟩

end ObscuraProto
