import ObscuraProto.Payload.RoundTrip
import ObscuraProto.Unpacking.Attribution

/-!
# Payloads that are built and unpacked

Values appended one after another come back as the keywords of a handler whose
parameters are annotated with their types.  The exceptions are values no read
gives back: `read_bytes` makes a list of a `bytes` object.
-/

namespace ObscuraProto

/-! ## Values and their annotations -/

/-- The annotation of a parameter that should receive the value. -/
def PyValue.hint : PyValue → Option Annotation
  | .str _ | .surrogates _ => some .str
  | .bool _ => some .bool
  | .bytes _ => some .bytes
  | .int value => if 0 ≤ value ∧ value < 2 ^ 64 then some .uint else Option.none
  | _ => Option.none

/-- A typed read can give the value. -/
def PyValue.readable : PyValue → Bool
  | .bytes _ | .surrogates _ => false
  | _ => true

/-- The core reads a string and a boolean back from the bytes it stored. -/
structure Core.Keeps (core : Core) : Prop where
  string : ∀ text, ∃ bytes,
    core.storeOther (.string text) = .ok bytes ∧ core.readString bytes = .ok text
  bool : ∀ flag, ∃ bytes,
    core.storeOther (.bool flag) = .ok bytes ∧ core.readBool bytes = .ok flag

/-- UTF-8 decoding of an encoded string. -/
theorem fromUTF8?_toUTF8 (value : String) :
    String.fromUTF8? ⟨value.toUTF8.data.toList.toArray⟩ = some value := by
  rw [Array.toArray_toList]
  change String.fromUTF8? value.toByteArray = _
  rw [String.fromUTF8?, dif_pos value.isValidUTF8]
  rfl

/-- A readable value is stored as a parameter that its annotation's decoder turns
back into it. -/
theorem Core.Keeps.decoder_stored {core : Core} (keeps : core.Keeps) {value : PyValue}
    {hint : Annotation} (hinted : value.hint = some hint) (readable : value.readable = true) :
    ∃ bytes decode,
      (∀ builder : PayloadBuilder, builder.addParam core value =
        .ok { builder with parameters := builder.parameters ++ [bytes] }) ∧
      decoder core hint = some decode ∧ decode bytes = .ok value := by
  cases value with
  | str value =>
      cases hinted
      obtain ⟨bytes, stored, read⟩ := keeps.string value.toUTF8.data.toList
      refine ⟨bytes, _, ?_, rfl, ?_⟩
      · intro builder
        change (core.storeOther (.string _)).bind _ = _
        rw [stored]
        rfl
      · simp only [read, bind, Except.bind, fromUTF8?_toUTF8]
        rfl
  | bool value =>
      cases hinted
      obtain ⟨bytes, stored, read⟩ := keeps.bool value
      refine ⟨bytes, _, ?_, rfl, ?_⟩
      · intro builder
        change (core.storeOther (.bool _)).bind _ = _
        rw [stored]
        rfl
      · rw [read]
        rfl
  | int value =>
      rw [PyValue.hint, Option.ite_none_right_eq_some] at hinted
      obtain ⟨⟨low, high⟩, same⟩ := hinted
      cases same
      obtain ⟨type, selected⟩ := IntType.exists_select (by omega) high
      exact ⟨_, _, fun builder => PayloadBuilder.addParam_int core builder selected, rfl,
        PayloadReader.decodeUint_encode low selected⟩
  | bytes _ | surrogates _ => cases readable
  | none | float _ | list _ | connectionHdl _ | payload _ | payloadReader | object _ _ =>
      cases hinted

/-- The decoders of the annotations give readable values only. -/
theorem decoder_readable {core : Core} {value : PyValue} {hint : Annotation} {bytes : Bytes}
    {decode : Bytes → Except PyExc PyValue} (hinted : value.hint = some hint)
    (entry : decoder core hint = some decode) (decoded : decode bytes = .ok value) :
    value.readable = true := by
  cases value with
  | bytes value =>
      cases hinted
      cases entry
      obtain ⟨items, -, result⟩ := bind_eq_ok_iff.mp decoded
      cases result
  | surrogates text =>
      cases hinted
      cases entry
      obtain ⟨items, -, result⟩ := bind_eq_ok_iff.mp decoded
      split at result <;> cases result
  | str _ | bool _ | int _ => rfl
  | none | float _ | list _ | connectionHdl _ | payload _ | payloadReader | object _ _ =>
      cases hinted

/-! ## Lists of values -/

/-- Append the values in order and build. -/
def buildPayload (core : Core) (opCode : Nat) (values : List PyValue) : Except PyExc Payload := do
  let builder ← values.foldlM (PayloadBuilder.addParam core) ⟨opCode, []⟩
  return builder.build

/-- Each parameter's name with the value sent for it. -/
def sentKwargs (params : List Param) (values : List PyValue) : Kwargs :=
  List.zipWith (fun param value => (param.name, value)) params values

section Lists

variable {core : Core} {values : List PyValue} {params : List Param}
  (hints : List.Forall₂ (fun value param => value.hint = some param.annotation) values params)

include hints

theorem sentKwargs_names : (sentKwargs params values).map Prod.fst = params.map Param.name := by
  induction hints with
  | nil => rfl
  | cons _ _ ih =>
      rw [List.map_cons, ← ih]
      rfl

/-- No value asks for the reader. -/
theorem ne_payloadReader_of_hints : ∀ param ∈ params, param.annotation ≠ .payloadReader := by
  induction hints with
  | nil =>
      intro param member
      cases member
  | @cons value _ _ _ hint _ ih =>
      intro param member asksReader
      cases member with
      | head =>
          rw [asksReader] at hint
          cases value <;> simp [PyValue.hint] at hint
      | tail _ member => exact ih param member asksReader

/-- Readable values are appended as parameters that decode to them. -/
theorem Core.Keeps.decodeParams_appended (keeps : core.Keeps)
    (readable : ∀ value ∈ values, value.readable = true) (builder : PayloadBuilder) :
    ∃ bytes,
      values.foldlM (PayloadBuilder.addParam core) builder =
        .ok { builder with parameters := builder.parameters ++ bytes } ∧
      decodeParams core params bytes = .ok (sentKwargs params values) := by
  induction hints generalizing builder with
  | nil =>
      refine ⟨[], ?_, rfl⟩
      rw [List.append_nil]
      rfl
  | cons hint _ ih =>
      obtain ⟨first, decode, appended, entry, decoded⟩ :=
        keeps.decoder_stored hint (readable _ List.mem_cons_self)
      obtain ⟨rest, others, read⟩ := ih (fun value member =>
        readable value (List.mem_cons_of_mem _ member))
        { builder with parameters := builder.parameters ++ [first] }
      refine ⟨first :: rest, ?_, ?_⟩
      · rw [List.foldlM_cons, appended]
        simp only [bind, Except.bind, others, List.append_assoc, List.singleton_append]
      · rw [decodeParams, entry]
        simp only [decoded, read, bind, Except.bind]
        rfl

theorem Core.Keeps.buildPayload_decodes (keeps : core.Keeps)
    (readable : ∀ value ∈ values, value.readable = true) (opCode : Nat) :
    ∃ payload, buildPayload core opCode values = .ok payload ∧
      decodeParams core params payload.parameters = .ok (sentKwargs params values) := by
  obtain ⟨bytes, appended, read⟩ :=
    keeps.decodeParams_appended hints readable ⟨opCode, []⟩
  refine ⟨⟨opCode, bytes⟩, ?_, read⟩
  rw [buildPayload, appended]
  rfl

/-- Only readable values can be what the reads gave. -/
theorem readable_of_decodeParams {bytes : List Bytes}
    (read : decodeParams core params bytes = .ok (sentKwargs params values)) :
    ∀ value ∈ values, value.readable = true := by
  induction hints generalizing bytes with
  | nil =>
      intro value member
      cases member
  | cons hint _ ih =>
      obtain ⟨decode, first, rest, value, others, entry, -, decoded, later, same⟩ :=
        decodeParams_cons_ok read
      cases same
      intro other member
      cases member with
      | head => exact decoder_readable hint entry decoded
      | tail _ member => exact ih later other member

end Lists

/-! ## The call of the handler -/

/-- The unpacked parameters ask for the values in order, and a handle comes first. -/
structure Signature.Carries (sig : Signature) (values : List PyValue) : Prop where
  leading : ∀ param ∈ sig.params.tail, param.annotation ≠ .connectionHdl
  noPayload : ∀ param ∈ sig.params, param.annotation ≠ .payload
  hints : List.Forall₂ (fun value param => value.hint = some param.annotation) values
    (sig.params.filter Param.unpacked)

/-- The handle and the values sent, each under the name of its parameter. -/
def Signature.sent (sig : Signature) (hdl : PyValue) (values : List PyValue) : Kwargs :=
  ((sig.params.filter fun param => param.annotation == .connectionHdl).map fun param =>
      (param.name, hdl)) ++
    sentKwargs (sig.params.filter Param.unpacked) values

/-- Calling the wrapper is one call of the handler that binds every annotated
parameter to what was sent for it. -/
structure CallsWithSent (sig : Signature) (hdl : PyValue) (values : List PyValue)
    (check : Returned → Py Returned) (call : (Kwargs → Py Returned) → Py Returned) : Prop where
  bound : sig.bindKeywords (sig.sent hdl values) = .ok (sig.sent hdl values)
  every : ∀ param ∈ sig.params, param.hinted = true →
    Signature.binds (sig.sent hdl values) param = true
  calls : ∀ body, call body = body (sig.sent hdl values) >>= check

/-- The values can be built into a payload, and both wrappers call the handler with
them.  A request handler has no parameter without an annotation. -/
def AutoUnpacks (core : Core) (handler : Handler) (receives : Bool) (hdl : PyValue)
    (opCode : Nat) (values : List PyValue) : Prop :=
  ∃ payload, buildPayload core opCode values = .ok payload ∧
    (∃ wrapper, createUnpackingHandler handler receives = .ok wrapper ∧
      CallsWithSent handler.sig hdl values pure (wrapper.call core · hdl payload)) ∧
    ((∀ param ∈ handler.sig.params, param.hinted = true) →
      CallsWithSent handler.sig hdl values
        (createRequestUnpackingHandler handler receives).checkResponse
        ((createRequestUnpackingHandler handler receives).call core · hdl (.new payload)))

/-- Condition under which the values reach the handler. -/
structure Signature.Reached (sig : Signature) (receives : Bool) (values : List PyValue) :
    Prop where
  hdl : ∀ param ∈ sig.params, param.annotation = .connectionHdl → receives = true
  keywords : ∀ param ∈ sig.params, param.hinted = true → param.byKeyword = true
  defaults : ∀ param ∈ sig.params, param.hinted = false → param.required = false
  values : ∀ value ∈ values, value.readable = true

namespace Signature.Carries

variable {sig : Signature} {values : List PyValue} (carries : sig.Carries values)

include carries

theorem oneHdl :
    (sig.params.filter fun param => param.annotation == .connectionHdl).length ≤ 1 :=
  sig.oneHdl_of_leading carries.leading

theorem lastWith_payload : sig.lastWith .payload = none := by
  have absent : (sig.params.filter fun param => param.annotation == .payload) = [] := by
    simpa using carries.noPayload
  rw [lastWith, absent]
  rfl

theorem classify_payloadParam : (classify sig).payloadParam = none := by
  rw [classify_eq]
  exact carries.lastWith_payload

theorem passed_iff {param : Param} (member : param ∈ sig.params) :
    sig.Passed param ↔ param.hinted = true := by
  constructor
  · intro passed
    exact passed.1
  · intro hinted
    refine ⟨hinted, ?_⟩
    intro special
    rcases special with isHdl | isPayload
    · exact sig.lastWith_of_only member (isHdl ▸ carries.oneHdl)
    · exact absurd isPayload (carries.noPayload param member)

theorem sent_names (hdl : PyValue) (name : String) :
    name ∈ (sig.sent hdl values).map Prod.fst ↔
      ∃ param ∈ sig.params, sig.Passed param ∧ param.name = name := by
  have kept (param : Param) (member : param ∈ sig.params) :
      sig.Passed param ↔ param.annotation = .connectionHdl ∨ param.unpacked = true := by
    rw [carries.passed_iff member]
    have notPayload := carries.noPayload param member
    by_cases isHdl : param.annotation = .connectionHdl <;>
      simp [Param.unpacked, Param.hinted, isHdl, notPayload]
  rw [sent, List.map_append, sentKwargs_names carries.hints]
  constructor
  · intro named
    simp only [List.map_map, List.mem_append, List.mem_map, List.mem_filter, beq_iff_eq,
      Function.comp_apply] at named
    rcases named with ⟨param, ⟨member, isHdl⟩, same⟩ | ⟨param, ⟨member, unpacked⟩, same⟩
    · exact ⟨param, member, (kept param member).mpr (.inl isHdl), same⟩
    · exact ⟨param, member, (kept param member).mpr (.inr unpacked), same⟩
  · intro named
    obtain ⟨param, member, passed, same⟩ := named
    simp only [List.map_map, List.mem_append, List.mem_map, List.mem_filter, beq_iff_eq,
      Function.comp_apply]
    rcases (kept param member).mp passed with isHdl | unpacked
    · exact .inl ⟨param, ⟨member, isHdl⟩, same⟩
    · exact .inr ⟨param, ⟨member, unpacked⟩, same⟩

/-- With the handle that was passed, the wrapper's keywords start as `sent` does. -/
theorem hdlKwargs_eq {receives : Bool} (hdl : PyValue)
    (native : ∀ param ∈ sig.params, param.annotation = .connectionHdl → receives = true) :
    hdlKwargs (sig.lastWith .connectionHdl) receives hdl =
      (sig.params.filter fun param => param.annotation == .connectionHdl).map fun param =>
        (param.name, hdl) := by
  cases last : sig.lastWith .connectionHdl with
  | none =>
      rw [lastWith, List.getLast?_eq_none_iff] at last
      rw [last]
      rfl
  | some param =>
      obtain ⟨member, isHdl⟩ := mem_of_lastWith last
      have single := sig.filter_of_only member (isHdl ▸ carries.oneHdl)
      rw [isHdl] at single
      rw [single, hdlKwargs, native param member isHdl]
      rfl

end Signature.Carries

/-! ## Both wrappers -/

theorem Signature.bindKeywords_eq {sig : Signature} {kwargs bound : Kwargs}
    (binds : sig.bindKeywords kwargs = .ok bound) : bound = kwargs := by
  rw [bindKeywords] at binds
  repeat' split at binds
  all_goals cases binds
  rfl

/-- A wrapper whose call is the handler's call on some keywords has read them. -/
theorem UnpackingWrapper.arguments_of_calls {core : Core} {wrapper : UnpackingWrapper}
    {hdl : PyValue} {payload : Payload} {kwargs : Kwargs}
    (calls : ∀ body, wrapper.call core body hdl payload = body kwargs >>= pure) :
    wrapper.arguments core hdl payload = .ok kwargs := by
  -- A handler that only returns on the expected keywords.
  let body : Kwargs → Py Returned := fun given =>
    if given = kwargs then pure (.value .none) else throw (.typeError "")
  have returned : ((wrapper.call core body hdl payload).exec {}).1 = .ok (.value .none) := by
    rw [calls, bind_pure]
    simp [body]
  rw [call] at returned
  cases read : wrapper.arguments core hdl payload with
  | error e => simp [read] at returned
  | ok given =>
      cases binding : wrapper.handler.sig.bindKeywords given with
      | error e => simp [read, binding] at returned
      | ok bound =>
          cases Signature.bindKeywords_eq binding
          by_cases expected : given = kwargs
          · rw [expected]
          · simp [read, binding, body, expected] at returned

namespace Signature.Reached

variable {core : Core} {handler : Handler} {receives : Bool} {values : List PyValue}
  (reached : handler.sig.Reached receives values) (carries : handler.sig.Carries values)

include reached carries

theorem bindKeywords_sent (hdl : PyValue) :
    handler.sig.bindKeywords (handler.sig.sent hdl values) = .ok (handler.sig.sent hdl values) := by
  rw [handler.sig.bindKeywords_passed_iff (carries.sent_names hdl)]
  constructor
  · intro param member passed
    exact .inl (reached.keywords param member passed.1)
  · intro param member required
    cases hinted : param.hinted with
    | false => simp [reached.defaults param member hinted] at required
    | true => exact ⟨reached.keywords param member hinted, (carries.passed_iff member).mpr hinted⟩

theorem binds_sent (hdl : PyValue) {param : Param} (member : param ∈ handler.sig.params)
    (hinted : param.hinted = true) :
    Signature.binds (handler.sig.sent hdl values) param = true := by
  rw [binds_iff, carries.sent_names]
  exact ⟨reached.keywords param member hinted, param, member,
    (carries.passed_iff member).mpr hinted, rfl⟩

theorem callsWithSent_payload (hdl : PyValue) {payload : Payload}
    (read : decodeParams core (handler.sig.params.filter Param.unpacked) payload.parameters =
      .ok (sentKwargs (handler.sig.params.filter Param.unpacked) values)) :
    ∃ wrapper, createUnpackingHandler handler receives = .ok wrapper ∧
      CallsWithSent handler.sig hdl values pure (wrapper.call core · hdl payload) := by
  have arguments : UnpackingWrapper.arguments core ⟨handler, receives, classify handler.sig⟩ hdl
      payload = .ok (handler.sig.sent hdl values) := by
    rw [UnpackingWrapper.arguments_of_no_payload core carries.classify_payloadParam]
    simp only [classify_eq, read]
    rw [carries.hdlKwargs_eq hdl reached.hdl]
    rfl
  refine ⟨⟨handler, receives, classify handler.sig⟩, ?_, ?_⟩
  · rw [createUnpackingHandler_eq_ok_iff]
    refine ⟨rfl, ?_, ?_⟩
    · intro asksHdl
      rw [classify_eq, Option.isSome_iff_exists] at asksHdl
      obtain ⟨param, last⟩ := asksHdl
      obtain ⟨member, isHdl⟩ := Signature.mem_of_lastWith last
      exact reached.hdl param member isHdl
    · intro asksPayload
      rw [carries.classify_payloadParam] at asksPayload
      cases asksPayload
  · constructor
    · exact reached.bindKeywords_sent carries hdl
    · intro param member hinted
      exact reached.binds_sent carries hdl member hinted
    · intro body
      rw [UnpackingWrapper.call_eq_body arguments (reached.bindKeywords_sent carries hdl),
        bind_pure]

theorem callsWithSent_request (hdl : PyValue) {payload : Payload}
    (hinted : ∀ param ∈ handler.sig.params, param.hinted = true)
    (read : decodeParams core (handler.sig.params.filter Param.unpacked) payload.parameters =
      .ok (sentKwargs (handler.sig.params.filter Param.unpacked) values)) :
    CallsWithSent handler.sig hdl values
      (createRequestUnpackingHandler handler receives).checkResponse
      ((createRequestUnpackingHandler handler receives).call core · hdl (.new payload)) := by
  have ordinary : ∀ param ∈ handler.sig.params.filter Param.unpacked,
      param.annotation ≠ .payloadReader :=
    ne_payloadReader_of_hints carries.hints
  have bound := reached.bindKeywords_sent carries hdl
  constructor
  · exact bound
  · intro param member asks
    exact reached.binds_sent carries hdl member asks
  · intro body
    apply RequestWrapper.call_eq_body
    · rw [RequestWrapper.arguments_eq, createRequestUnpackingHandler_eq carries.leading
        carries.noPayload reached.hdl hinted, decodeRequestParams_eq ordinary]
      simp only [PayloadReader.remaining, PayloadReader.new, List.drop_zero, read]
      rw [carries.hdlKwargs_eq hdl reached.hdl]
      rfl
    · rw [createRequestUnpackingHandler_handler]
      exact bound

end Signature.Reached

/-- Building and unpacking is the identity exactly when every annotated parameter
can be passed by keyword, no other parameter is required, the handle is native, and
every value can be read back. -/
theorem autoUnpacks_iff (core : Core) (keeps : core.Keeps) (handler : Handler) (receives : Bool)
    (hdl : PyValue) (opCode : Nat) (values : List PyValue)
    (carries : handler.sig.Carries values) :
    AutoUnpacks core handler receives hdl opCode values ↔
      handler.sig.Reached receives values := by
  constructor
  · intro unpacks
    obtain ⟨payload, -, ⟨wrapper, accepted, called⟩, -⟩ := unpacks
    obtain ⟨rfl, native, -⟩ := createUnpackingHandler_eq_ok_iff.mp accepted
    have arguments := UnpackingWrapper.arguments_of_calls called.calls
    have nativeHdl : ∀ param ∈ handler.sig.params,
        param.annotation = .connectionHdl → receives = true := by
      intro param member isHdl
      apply native
      have last := handler.sig.lastWith_of_only member (isHdl ▸ carries.oneHdl)
      rw [classify_eq, ← isHdl, last]
      rfl
    have required := ((handler.sig.bindKeywords_passed_iff (carries.sent_names hdl)).mp
      called.bound).2
    constructor
    · exact nativeHdl
    · intro param member hinted
      exact (Signature.binds_iff.mp (called.every param member hinted)).1
    · intro param member unhinted
      by_contra isRequired
      obtain ⟨-, hinted, -⟩ := required param member (by simpa using isRequired)
      simp [unhinted] at hinted
    · rw [UnpackingWrapper.arguments_of_no_payload core carries.classify_payloadParam]
        at arguments
      split at arguments
      · next read decoded =>
          rw [classify_eq] at decoded arguments
          rw [carries.hdlKwargs_eq hdl nativeHdl, Signature.sent, Except.ok.injEq,
            List.append_right_inj] at arguments
          rw [arguments] at decoded
          exact readable_of_decodeParams carries.hints decoded
      · cases arguments
  · intro reached
    obtain ⟨payload, built, read⟩ := keeps.buildPayload_decodes carries.hints reached.values opCode
    refine ⟨payload, built, reached.callsWithSent_payload carries hdl read, ?_⟩
    intro hinted
    exact reached.callsWithSent_request carries hdl hinted read

theorem littleEndian_keeps : Core.littleEndian.Keeps where
  string text := ⟨text, rfl, rfl⟩
  bool flag := ⟨_, rfl, by cases flag <;> rfl⟩

/-- `def handle(hdl: ConnectionHdl, name: str, value: uint, flag: bool)`. -/
def profileHandler : Handler where
  name := .ok "handle"
  sig := ⟨[{ name := "hdl", annotation := .connectionHdl }, { name := "name", annotation := .str },
    { name := "value", annotation := .uint }, { name := "flag", annotation := .bool }], by decide⟩

theorem autoUnpacks_profile :
    AutoUnpacks .littleEndian profileHandler true (.connectionHdl 7) 0x9001
      [.str "test_name", .int 12345678, .bool true] :=
  (autoUnpacks_iff .littleEndian littleEndian_keeps profileHandler true (.connectionHdl 7) 0x9001
    [.str "test_name", .int 12345678, .bool true]
    { leading := by decide
      noPayload := by decide
      hints := by decide }).mpr
    { hdl := by decide
      keywords := by decide
      defaults := by decide
      values := by decide }

/-- `def handle(data: bytes)`. -/
def bytesHandler : Handler where
  name := .ok "handle"
  sig := ⟨[{ name := "data", annotation := .bytes }], by decide⟩

/-- A handler annotated with `bytes` gets a list. -/
theorem autoUnpacks_bytes_fails :
    ¬ ∀ (core : Core) (handler : Handler) (receives : Bool) (hdl : PyValue) (opCode : Nat)
      (values : List PyValue), core.Keeps → handler.sig.Carries values →
        AutoUnpacks core handler receives hdl opCode values := by
  intro every
  obtain ⟨payload, built, ⟨wrapper, accepted, called⟩, -⟩ := every .littleEndian bytesHandler false
    .none 0x5001 [.bytes [1]] littleEndian_keeps
    { leading := by decide
      noPayload := by decide
      hints := by decide }
  cases built
  cases accepted
  have arguments := UnpackingWrapper.arguments_of_calls called.calls
  have given : UnpackingWrapper.arguments .littleEndian
      ⟨bytesHandler, false, classify bytesHandler.sig⟩ .none ⟨0x5001, [[1]]⟩ =
        .ok [("data", .list [1])] := by decide
  cases given.symm.trans arguments

end ObscuraProto
