import ObscuraProto.Dispatcher.Request
import ObscuraProto.Unpacking.Bindable

/-!
# Reads that fail and handlers that raise

Both wrappers read every parameter before they call the handler.  A read that
fails keeps the handler from being called and is reported as an unpacking error;
what the handler raises is passed on as it is.
-/

namespace ObscuraProto

/-- `unpacking_wrapper(*args)`, with `body` the code of the handler. -/
def UnpackingWrapper.call (core : Core) (wrapper : UnpackingWrapper)
    (body : Kwargs → Py Returned) (nativeHdl : PyValue) (payload : Payload) : Py Returned := do
  let handlerKwargs ← Py.ofExcept (wrapper.arguments core nativeHdl payload)
  let bound ← Py.ofExcept (wrapper.handler.sig.bindKeywords handlerKwargs)
  body bound

/-- What the request wrapper does with the handler's result. -/
def RequestWrapper.checkResponse (wrapper : RequestWrapper) : Returned → Py Returned
  | .coroutine coroutine => return .coroutine coroutine
  | .value response =>
      if response.isPayload then return .value response
      else throw (wrapper.notAPayload response)

/-! ## The reads of a request -/

/-- Without a parameter for the reader the two loops read alike. -/
theorem decodeRequestParams_eq {core : Core} {params : List Param}
    (ordinary : ∀ param ∈ params, param.annotation ≠ .payloadReader) (bytes : List Bytes) :
    decodeRequestParams core params bytes = decodeParams core params bytes := by
  induction params generalizing bytes with
  | nil => rfl
  | cons param params ih =>
      have later (rest : List Bytes) := ih (fun other member =>
        ordinary other (List.mem_cons_of_mem _ member)) rest
      rw [decodeRequestParams, decodeParams, if_neg (ordinary param List.mem_cons_self)]
      cases decoder core param.annotation with
      | none => rfl
      | some decode =>
          cases bytes with
          | nil => rfl
          | cons first rest =>
              exact congrArg (fun others => do
                let value ← decode first
                return (param.name, value) :: (← others)) (later rest)

/-! ## Keywords of the parameters that were read -/

/-- A parameter that was read asks for the reader, or has a decoder and a raw parameter
it decodes. -/
theorem decodeRequestParams_cons_ok {core : Core} {param : Param} {params : List Param}
    {bytes : List Bytes} {kwargs : Kwargs}
    (read : decodeRequestParams core (param :: params) bytes = .ok kwargs) :
    (param.annotation = .payloadReader ∨ (decoder core param.annotation).isSome = true) ∧
      ∃ rest value others, decodeRequestParams core params rest = .ok others ∧
        kwargs = (param.name, value) :: others := by
  rw [decodeRequestParams] at read
  split at read
  · next asksReader =>
      obtain ⟨others, later, same⟩ := bind_eq_ok_iff.mp read
      cases same
      exact ⟨.inl asksReader, bytes, .payloadReader, others, later, rfl⟩
  · split at read
    · cases read
    · next decode entry =>
        cases bytes with
        | nil => cases read
        | cons first rest =>
            obtain ⟨value, -, after⟩ := bind_eq_ok_iff.mp read
            obtain ⟨others, later, same⟩ := bind_eq_ok_iff.mp after
            cases same
            exact ⟨.inr (by rw [entry]; rfl), rest, value, others, later, rfl⟩

theorem decodeRequestParams_names {core : Core} {params : List Param} {bytes : List Bytes}
    {kwargs : Kwargs} (read : decodeRequestParams core params bytes = .ok kwargs) :
    kwargs.map Prod.fst = params.map Param.name := by
  induction params generalizing bytes kwargs with
  | nil => cases read; rfl
  | cons param params ih =>
      obtain ⟨-, rest, value, others, later, rfl⟩ := decodeRequestParams_cons_ok read
      rw [List.map_cons, List.map_cons, ih later]

/-- Keywords for all parameters bind, when every parameter can be passed by
keyword. -/
theorem Signature.bindKeywords_of_names {sig : Signature} {kwargs : Kwargs}
    (keywords : ∀ param ∈ sig.params, param.byKeyword = true)
    (names : ∀ name, name ∈ kwargs.map Prod.fst ↔ ∃ param ∈ sig.params, param.name = name) :
    sig.bindKeywords kwargs = .ok kwargs := by
  rw [bindKeywords_eq_ok_iff]
  constructor
  · intro entry member
    obtain ⟨param, paramMem, sameName⟩ := (names entry.1).mp (List.mem_map_of_mem member)
    rw [← sameName, acceptsKeyword_iff paramMem]
    exact .inl (keywords param paramMem)
  · intro param member _
    rw [binds_iff]
    exact ⟨keywords param member, (names param.name).mpr ⟨param, member, rfl⟩⟩

/-! ## The call of the handler -/

section Calls

variable {core : Core} {nativeHdl : PyValue} {kwargs : Kwargs} {e : PyExc}

/-- With its keywords read and bound, the payload wrapper is the handler's call. -/
theorem UnpackingWrapper.call_eq_body {wrapper : UnpackingWrapper} {payload : Payload}
    (read : wrapper.arguments core nativeHdl payload = .ok kwargs)
    (bound : wrapper.handler.sig.bindKeywords kwargs = .ok kwargs)
    (body : Kwargs → Py Returned) :
    wrapper.call core body nativeHdl payload = body kwargs := by
  rw [call, read]
  change (do body (← Py.ofExcept (wrapper.handler.sig.bindKeywords kwargs))) = _
  rw [bound]
  rfl

theorem UnpackingWrapper.call_eq_throw {wrapper : UnpackingWrapper} {payload : Payload}
    (failed : wrapper.arguments core nativeHdl payload = .error e)
    (body : Kwargs → Py Returned) :
    wrapper.call core body nativeHdl payload = throw e := by
  rw [call, failed]
  rfl

theorem RequestWrapper.call_eq_body {wrapper : RequestWrapper} {reader : PayloadReader}
    (read : wrapper.arguments core nativeHdl reader = .ok kwargs)
    (bound : wrapper.handler.sig.bindKeywords kwargs = .ok kwargs)
    (body : Kwargs → Py Returned) :
    wrapper.call core body nativeHdl reader = body kwargs >>= wrapper.checkResponse := by
  rw [call, read]
  simp only [bound]
  rfl

/-- A request that cannot be read is answered with the error payload. -/
theorem RequestWrapper.call_eq_reply {wrapper : RequestWrapper} {reader : PayloadReader}
    {name : String} {reply : PyValue} (named : wrapper.handler.name = .ok name)
    (failed : wrapper.arguments core nativeHdl reader = .error e)
    (built : errorPayload core e = .ok reply) (body : Kwargs → Py Returned) :
    wrapper.call core body nativeHdl reader = return .value reply := by
  rw [call, failed]
  simp only [named, built]
  rfl

end Calls

/-! ## The request wrapper -/

/-- The handle goes to the leading parameter, and the others are unpacked. -/
theorem createRequestUnpackingHandler_params (handler : Handler) (receives : Bool) :
    (createRequestUnpackingHandler handler receives).hdlParam.toList ++
      (createRequestUnpackingHandler handler receives).unpackParams = handler.sig.params := by
  rw [createRequestUnpackingHandler]
  split
  · next first rest shape =>
      rw [shape]
      split <;> rfl
  · next shape => exact shape.symm

theorem createRequestUnpackingHandler_names {core : Core} {handler : Handler} (receives : Bool)
    (hdl : PyValue) {bytes : List Bytes} {read : Kwargs}
    (decoded : decodeRequestParams core
      (createRequestUnpackingHandler handler receives).unpackParams bytes = .ok read)
    (name : String) :
    let wrapper := createRequestUnpackingHandler handler receives
    name ∈ (hdlKwargs wrapper.hdlParam wrapper.receivesHdlFromNative hdl ++ read).map Prod.fst ↔
      ∃ param ∈ handler.sig.params, param.name = name := by
  intro wrapper
  rw [List.map_append, hdlKwargs_names, decodeRequestParams_names decoded, ← List.map_append,
    createRequestUnpackingHandler_params, List.mem_map]

/-- The core stores the text of the error, so the reply can be built. -/
theorem errorPayload_opCode {core : Core}
    (stores : ∀ text, ∃ bytes, core.storeOther (.string text) = .ok bytes) (e : PyExc) :
    ∃ reply : Payload, RequestWrapper.errorPayload core e = .ok (.payload reply) ∧
      reply.opCode = 0x0000 := by
  obtain ⟨bytes, stored⟩ := stores (s!"Error: {e.str}").toUTF8.data.toList
  have built : PayloadBuilder.addParam core ⟨0x0000, []⟩ (.str s!"Error: {e.str}") =
      .ok ⟨0x0000, [bytes]⟩ := by
    change (core.storeOther (.string _)).bind _ = _
    rw [stored]
    rfl
  refine ⟨⟨0x0000, [bytes]⟩, ?_, rfl⟩
  rw [RequestWrapper.errorPayload, built]
  rfl

/-! ## Signatures without gaps -/

/-- Every parameter is annotated and can be passed by keyword, with at most one
handle and at most one payload among them. -/
structure Signature.Plain (sig : Signature) : Prop where
  keywords : ∀ param ∈ sig.params, param.byKeyword = true
  hinted : ∀ param ∈ sig.params, param.hinted = true
  oneHdl : (sig.params.filter fun param => param.annotation == .connectionHdl).length ≤ 1
  onePayload : (sig.params.filter fun param => param.annotation == .payload).length ≤ 1

theorem Signature.filter_of_only {sig : Signature} {param : Param} (member : param ∈ sig.params)
    (only : (sig.params.filter fun other => other.annotation == param.annotation).length ≤ 1) :
    (sig.params.filter fun other => other.annotation == param.annotation) = [param] := by
  have kept : param ∈ sig.params.filter fun other => other.annotation == param.annotation := by
    simp [member]
  obtain ⟨other, single⟩ := List.length_eq_one_iff.mp
    (Nat.le_antisymm only (List.length_pos_of_mem kept))
  rw [single, List.mem_singleton] at kept
  rw [single, kept]

theorem Signature.lastWith_of_only {sig : Signature} {param : Param} (member : param ∈ sig.params)
    (only : (sig.params.filter fun other => other.annotation == param.annotation).length ≤ 1) :
    sig.lastWith param.annotation = some param := by
  rw [lastWith, sig.filter_of_only member only]
  rfl

theorem Signature.Plain.passed {sig : Signature} {param : Param} (plain : sig.Plain)
    (member : param ∈ sig.params) : sig.Passed param := by
  refine ⟨plain.hinted param member, fun special => sig.lastWith_of_only member ?_⟩
  rcases special with isHdl | isPayload
  · rw [isHdl]
    exact plain.oneHdl
  · rw [isPayload]
    exact plain.onePayload

theorem Signature.oneHdl_of_leading {sig : Signature}
    (leading : ∀ param ∈ sig.params.tail, param.annotation ≠ .connectionHdl) :
    (sig.params.filter fun param => param.annotation == .connectionHdl).length ≤ 1 := by
  cases shape : sig.params with
  | nil => exact Nat.zero_le 1
  | cons first rest =>
      rw [shape, List.tail_cons] at leading
      have others : (rest.filter fun param => param.annotation == .connectionHdl) = [] := by
        simpa using leading
      rw [List.filter_cons, others]
      split <;> simp

theorem Param.unpacked_iff {param : Param} :
    param.unpacked = true ↔ param.hinted = true ∧ param.annotation ≠ .connectionHdl ∧
      param.annotation ≠ .payload := by
  simp [unpacked, and_assoc]

/-- With a handle in front or none at all, registration of a request handler keeps the
handle and the unpacked parameters apart as registration of a payload handler does. -/
theorem createRequestUnpackingHandler_eq {handler : Handler} {receives : Bool}
    (leading : ∀ param ∈ handler.sig.params.tail, param.annotation ≠ .connectionHdl)
    (noPayload : ∀ param ∈ handler.sig.params, param.annotation ≠ .payload)
    (native : ∀ param ∈ handler.sig.params, param.annotation = .connectionHdl → receives = true)
    (hinted : ∀ param ∈ handler.sig.params, param.hinted = true) :
    createRequestUnpackingHandler handler receives =
      ⟨handler, receives, handler.sig.lastWith .connectionHdl,
        handler.sig.params.filter Param.unpacked⟩ := by
  have oneHdl := handler.sig.oneHdl_of_leading leading
  have unpacked (param : Param) (member : param ∈ handler.sig.params)
      (notHdl : param.annotation ≠ .connectionHdl) : param.unpacked = true :=
    Param.unpacked_iff.mpr ⟨hinted param member, notHdl, noPayload param member⟩
  rw [createRequestUnpackingHandler]
  split
  · next first rest shape =>
      rw [shape, List.tail_cons] at leading
      have firstMem : first ∈ handler.sig.params := by simp [shape]
      have kept : rest.filter Param.unpacked = rest := by
        rw [List.filter_eq_self]
        intro param member
        exact unpacked param (by simp [shape, member]) (leading param member)
      by_cases isHdl : first.annotation = .connectionHdl
      · have last : handler.sig.lastWith .connectionHdl = some first := by
          rw [← isHdl]
          exact handler.sig.lastWith_of_only firstMem (isHdl ▸ oneHdl)
        rw [last, shape, List.filter_cons, kept, native first firstMem isHdl]
        simp [isHdl, Param.unpacked]
      · have absent : handler.sig.lastWith .connectionHdl = none := by
          rw [Signature.lastWith, List.getLast?_eq_none_iff, shape]
          simpa [isHdl] using leading
        rw [absent, shape, List.filter_cons, kept, unpacked first firstMem isHdl]
        simp [isHdl]
  · next shape =>
      rw [Signature.lastWith, shape]
      rfl

/-! ## Attribution -/

/-- The handler is entered once, its keywords bound, and an exception it raises is
the outcome of the call. -/
def EntersOnce (sig : Signature) (call : (Kwargs → Py Returned) → Py Returned) : Prop :=
  ∃ kwargs, sig.bindKeywords kwargs = .ok kwargs ∧
    ∃ check : Returned → Py Returned, (∀ body, call body = body kwargs >>= check) ∧
      ∀ body world e after, (body kwargs).exec world = (.error e, after) →
        (call body).exec world = (.error e, after)

/-- The handler is not entered, and the call has this outcome. -/
def Refuses (call : (Kwargs → Py Returned) → Py Returned) (outcome : Py Returned) : Prop :=
  ∀ body, call body = outcome

theorem entersOnce_of_check {sig : Signature} {call : (Kwargs → Py Returned) → Py Returned}
    {kwargs : Kwargs} {check : Returned → Py Returned}
    (bound : sig.bindKeywords kwargs = .ok kwargs)
    (calls : ∀ body, call body = body kwargs >>= check) : EntersOnce sig call := by
  refine ⟨kwargs, bound, check, calls, ?_⟩
  intro body world e after raises
  rw [calls, Py.exec_bind, raises]

namespace Signature.Plain

variable {core : Core} {handler : Handler} {name : String} (named : handler.name = .ok name)
  (plain : handler.sig.Plain) (receives : Bool) (hdl : PyValue)

include named plain

/-- An unpacking error of the payload wrapper is chained to the read that failed. -/
theorem payload_call {wrapper : UnpackingWrapper}
    (accepted : createUnpackingHandler handler receives = .ok wrapper) (payload : Payload) :
    match decodeParams core (handler.sig.params.filter Param.unpacked) payload.parameters with
    | .ok _ => EntersOnce handler.sig (wrapper.call core · hdl payload)
    | .error e => ∃ text, Refuses (wrapper.call core · hdl payload)
        (throw (.typeErrorFrom text e)) := by
  split
  · next read decoded =>
      obtain ⟨kwargs, called, names⟩ := wrapper.arguments_of_decoded accepted hdl payload decoded
      obtain ⟨rfl, -⟩ := createUnpackingHandler_eq_ok_iff.mp accepted
      have bound : handler.sig.bindKeywords kwargs = .ok kwargs := by
        apply Signature.bindKeywords_of_names plain.keywords
        intro name
        rw [names]
        apply exists_congr
        intro param
        apply and_congr_right
        intro member
        simp [plain.passed member]
      have calls (body : Kwargs → Py Returned) :
          UnpackingWrapper.call core ⟨handler, receives, classify handler.sig⟩ body hdl payload =
            body kwargs >>= pure := by
        rw [UnpackingWrapper.call_eq_body called bound, bind_pure]
      exact entersOnce_of_check bound calls
  · next e failed =>
      obtain ⟨rfl, -, exclusive⟩ := createUnpackingHandler_eq_ok_iff.mp accepted
      have noPayload : (classify handler.sig).payloadParam = none := by
        by_contra known
        have nothing := exclusive (Option.isSome_iff_ne_none.mpr known)
        simp only [classify_eq] at nothing
        rw [nothing] at failed
        cases failed
      have refused : UnpackingWrapper.arguments core ⟨handler, receives, classify handler.sig⟩
          hdl payload =
            .error (UnpackingWrapper.unpackError ⟨handler, receives, classify handler.sig⟩
              payload e) := by
        rw [UnpackingWrapper.arguments_of_no_payload core noPayload]
        simp only [classify_eq, failed]
      simp only [UnpackingWrapper.unpackError, Handler.namedError, named] at refused
      exact ⟨_, UnpackingWrapper.call_eq_throw refused⟩

/-- A read that fails is answered with the error payload. -/
theorem request_call (stores : ∀ text, ∃ bytes, core.storeOther (.string text) = .ok bytes)
    (reader : PayloadReader) :
    match decodeRequestParams core (createRequestUnpackingHandler handler receives).unpackParams
        reader.remaining with
    | .ok _ => EntersOnce handler.sig
        ((createRequestUnpackingHandler handler receives).call core · hdl reader)
    | .error _ => ∃ reply : Payload, reply.opCode = 0x0000 ∧
        Refuses ((createRequestUnpackingHandler handler receives).call core · hdl reader)
          (return .value (.payload reply)) := by
  have reads := (createRequestUnpackingHandler handler receives).arguments_eq core hdl reader
  split
  · next read decoded =>
      rw [decoded] at reads
      have bound := Signature.bindKeywords_of_names plain.keywords
        (createRequestUnpackingHandler_names receives hdl decoded)
      apply entersOnce_of_check bound
      intro body
      exact RequestWrapper.call_eq_body reads
        ((createRequestUnpackingHandler_handler handler receives).symm ▸ bound) body
  · next e failed =>
      rw [failed] at reads
      obtain ⟨reply, built, opCode⟩ := errorPayload_opCode stores e
      refine ⟨reply, opCode, ?_⟩
      intro body
      rw [← createRequestUnpackingHandler_handler handler receives] at named
      exact RequestWrapper.call_eq_reply named reads built body

end Signature.Plain

/-- Both wrappers enter the handler exactly when all reads succeed and report a
failed read in their own way; what the handler raises is not reported as one. -/
theorem unpacking_attributed (core : Core) (handler : Handler) (receives : Bool)
    (named : ∃ name, handler.name = .ok name) (plain : handler.sig.Plain)
    (stores : ∀ text, ∃ bytes, core.storeOther (.string text) = .ok bytes) (hdl : PyValue) :
    (∀ wrapper, createUnpackingHandler handler receives = .ok wrapper → ∀ payload : Payload,
      match decodeParams core (handler.sig.params.filter Param.unpacked) payload.parameters with
      | .ok _ => EntersOnce handler.sig (wrapper.call core · hdl payload)
      | .error e => ∃ text, Refuses (wrapper.call core · hdl payload)
          (throw (.typeErrorFrom text e))) ∧
    ∀ reader : PayloadReader,
      match decodeRequestParams core (createRequestUnpackingHandler handler receives).unpackParams
          reader.remaining with
      | .ok _ => EntersOnce handler.sig
          ((createRequestUnpackingHandler handler receives).call core · hdl reader)
      | .error _ => ∃ reply : Payload, reply.opCode = 0x0000 ∧
          Refuses ((createRequestUnpackingHandler handler receives).call core · hdl reader)
            (return .value (.payload reply)) := by
  obtain ⟨name, named⟩ := named
  constructor
  · intro wrapper accepted payload
    exact plain.payload_call named receives hdl accepted payload
  · intro reader
    exact plain.request_call named receives hdl stores reader

/-- `def handle(hdl: ConnectionHdl, first: uint, second: uint)`. -/
def twoNumbers : Handler where
  name := .ok "handle"
  sig := ⟨[{ name := "hdl", annotation := .connectionHdl },
    { name := "first", annotation := .uint }, { name := "second", annotation := .uint }],
    by decide⟩

/-- The second parameter has a size no integer has, after the first was read. -/
theorem unpacking_attributed_wrongSize :
    ∃ text, Refuses
      (UnpackingWrapper.call .littleEndian ⟨twoNumbers, true, classify twoNumbers.sig⟩ ·
        (.connectionHdl 7) ⟨0x1001, [[5], [1, 2, 3]]⟩)
      (throw (.typeErrorFrom text (.runtimeError
        "Invalid size for an unsigned integer parameter: 3"))) := by
  have plain : twoNumbers.sig.Plain :=
    { keywords := by decide, hinted := by decide, oneHdl := by decide, onePayload := by decide }
  exact (unpacking_attributed .littleEndian twoNumbers true ⟨"handle", rfl⟩ plain
    (fun text => ⟨text, rfl⟩) (.connectionHdl 7)).1 _ rfl ⟨0x1001, [[5], [1, 2, 3]]⟩

end ObscuraProto
