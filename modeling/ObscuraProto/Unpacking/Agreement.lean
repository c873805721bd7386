import ObscuraProto.Unpacking.Attribution

/-!
# One signature, two wrappers

A payload handler may have its handle anywhere: it is found by its annotation.  A
request handler must have it in front; anywhere else the handle is a parameter to
read, and no read gives one.
-/

namespace ObscuraProto

/-- A handle at most once, and otherwise parameters with a typed read. -/
structure Signature.Unpackable (sig : Signature) : Prop where
  hints : ∀ param ∈ sig.params, param.annotation ∈
    ([.connectionHdl, .str, .int, .uint, .float, .bool, .bytes] : List Annotation)
  oneHdl : (sig.params.filter fun param => param.annotation == .connectionHdl).length ≤ 1

/-- The keywords the payload wrapper calls its handler with, if it calls it. -/
def UnpackingWrapper.calledWith (core : Core) (wrapper : UnpackingWrapper) (hdl : PyValue)
    (payload : Payload) : Option Kwargs :=
  (wrapper.arguments core hdl payload).toOption

/-- The keywords the request wrapper calls its handler with, if it calls it. -/
def RequestWrapper.calledWith (core : Core) (wrapper : RequestWrapper) (hdl : PyValue)
    (reader : PayloadReader) : Option Kwargs :=
  (wrapper.arguments core hdl reader).toOption

/-- On a server both wrappers of the handler call it with the same keywords, or
neither calls it. -/
def UnpackAlike (core : Core) (handler : Handler) (hdl : PyValue) (payload : Payload) : Prop :=
  ∃ wrapper, createUnpackingHandler handler true = .ok wrapper ∧
    wrapper.calledWith core hdl payload =
      (createRequestUnpackingHandler handler true).calledWith core hdl (.new payload)

/-! ## Payloads that do not match -/

theorem matches_of_decodeParams {core : Core} {params : List Param} {bytes : List Bytes}
    {kwargs : Kwargs} (read : decodeParams core params bytes = .ok kwargs) :
    Matches core params bytes := by
  induction params generalizing bytes kwargs with
  | nil => trivial
  | cons param params ih =>
      obtain ⟨decode, first, rest, value, others, entry, rfl, decoded, later, -⟩ :=
        decodeParams_cons_ok read
      exact ⟨⟨decode, value, entry, decoded⟩, ih later⟩

theorem decodeParams_toOption_eq_none_iff {core : Core} {params : List Param}
    {bytes : List Bytes} :
    (decodeParams core params bytes).toOption = none ↔ ¬ Matches core params bytes := by
  cases read : decodeParams core params bytes with
  | ok kwargs => simp [Except.toOption, matches_of_decodeParams read]
  | error e =>
      have refused : ¬ Matches core params bytes := by
        intro matching
        obtain ⟨kwargs, given, -⟩ := decodeParams_of_matches matching
        rw [read] at given
        cases given
      simp [Except.toOption, refused]

/-- A handle among the parameters to read stops the reads of a request. -/
theorem decodeRequestParams_ne_ok_of_hdl (core : Core) {params : List Param} {param : Param}
    (member : param ∈ params) (isHdl : param.annotation = .connectionHdl) (bytes : List Bytes)
    (kwargs : Kwargs) : decodeRequestParams core params bytes ≠ .ok kwargs := by
  intro read
  induction params generalizing bytes kwargs with
  | nil => cases member
  | cons first rest ih =>
      obtain ⟨known, bytes, value, others, after, -⟩ := decodeRequestParams_cons_ok read
      rcases List.mem_cons.mp member with rfl | later
      · rw [isHdl] at known
        rcases known with asksReader | decodes
        · cases asksReader
        · cases decodes
      · exact ih later bytes others after

/-- A request handler with its handle behind another parameter is never called. -/
theorem request_calledWith_of_later (core : Core) {handler : Handler} (hdl : PyValue)
    (payload : Payload) {param : Param} (later : param ∈ handler.sig.params.tail)
    (isHdl : param.annotation = .connectionHdl) :
    (createRequestUnpackingHandler handler true).calledWith core hdl (.new payload) = none := by
  have member : param ∈ (createRequestUnpackingHandler handler true).unpackParams := by
    rw [createRequestUnpackingHandler]
    split
    · next first rest shape =>
        rw [shape, List.tail_cons] at later
        split
        · exact later
        · exact List.mem_cons_of_mem _ later
    · next shape =>
        rw [shape] at later
        cases later
  rw [RequestWrapper.calledWith, RequestWrapper.arguments_eq]
  cases read : decodeRequestParams core (createRequestUnpackingHandler handler true).unpackParams
      (PayloadReader.new payload).remaining with
  | error e => rfl
  | ok kwargs => exact absurd read (decodeRequestParams_ne_ok_of_hdl core member isHdl _ kwargs)

/-! ## Both wrappers of one signature -/

namespace Signature.Unpackable

variable (core : Core) {handler : Handler} (unpackable : handler.sig.Unpackable)

include unpackable

theorem hinted {param : Param} (member : param ∈ handler.sig.params) : param.hinted = true := by
  have hint := unpackable.hints param member
  rw [Param.hinted, bne_iff_ne]
  intro empty
  rw [empty] at hint
  simp at hint

theorem noPayload {param : Param} (member : param ∈ handler.sig.params) :
    param.annotation ≠ .payload := by
  have hint := unpackable.hints param member
  intro isPayload
  rw [isPayload] at hint
  simp at hint

theorem noReader {param : Param} (member : param ∈ handler.sig.params) :
    param.annotation ≠ .payloadReader := by
  have hint := unpackable.hints param member
  intro isReader
  rw [isReader] at hint
  simp at hint

theorem classify_payloadParam : (classify handler.sig).payloadParam = none := by
  have absent : (handler.sig.params.filter fun param => param.annotation == .payload) = [] := by
    rw [List.filter_eq_nil_iff]
    intro param member
    simpa using unpackable.noPayload member
  rw [classify_eq]
  simp only [Signature.lastWith, absent]
  rfl

/-- The payload wrapper is accepted on a server, and calls the handler when the
parameters beside the handle can be read. -/
theorem payload_calledWith (hdl : PyValue) (payload : Payload) :
    ∃ wrapper, createUnpackingHandler handler true = .ok wrapper ∧
      wrapper.calledWith core hdl payload =
        (decodeParams core (handler.sig.params.filter Param.unpacked)
          payload.parameters).toOption.map
            (hdlKwargs (handler.sig.lastWith .connectionHdl) true hdl ++ ·) := by
  refine ⟨⟨handler, true, classify handler.sig⟩, ?_, ?_⟩
  · rw [createUnpackingHandler_eq_ok_iff]
    refine ⟨rfl, fun _ => rfl, ?_⟩
    intro asksPayload
    rw [unpackable.classify_payloadParam] at asksPayload
    cases asksPayload
  · rw [UnpackingWrapper.calledWith,
      UnpackingWrapper.arguments_of_no_payload core unpackable.classify_payloadParam]
    simp only [classify_eq]
    cases decodeParams core (handler.sig.params.filter Param.unpacked) payload.parameters <;> rfl

/-- With a handle in front or none the request wrapper makes the same call. -/
theorem request_calledWith_of_leading (hdl : PyValue) (payload : Payload)
    (leading : ∀ param ∈ handler.sig.params.tail, param.annotation ≠ .connectionHdl) :
    (createRequestUnpackingHandler handler true).calledWith core hdl (.new payload) =
      (decodeParams core (handler.sig.params.filter Param.unpacked)
        payload.parameters).toOption.map
          (hdlKwargs (handler.sig.lastWith .connectionHdl) true hdl ++ ·) := by
  have ordinary : ∀ param ∈ handler.sig.params.filter Param.unpacked,
      param.annotation ≠ .payloadReader := by
    intro param member
    exact unpackable.noReader (List.mem_of_mem_filter member)
  rw [createRequestUnpackingHandler_eq leading (fun _ member => unpackable.noPayload member)
    (fun _ _ _ => rfl) (fun _ member => unpackable.hinted member), RequestWrapper.calledWith,
    RequestWrapper.arguments_eq, decodeRequestParams_eq ordinary]
  simp only [PayloadReader.remaining, PayloadReader.new, List.drop_zero]
  cases decodeParams core (handler.sig.params.filter Param.unpacked) payload.parameters <;> rfl

end Signature.Unpackable

/-- The wrappers agree exactly when the handle is in front or absent, or the payload
does not match the parameters beside it. -/
theorem unpackAlike_iff (core : Core) (handler : Handler) (hdl : PyValue) (payload : Payload)
    (unpackable : handler.sig.Unpackable) :
    UnpackAlike core handler hdl payload ↔
      (∀ param ∈ handler.sig.params.tail, param.annotation ≠ .connectionHdl) ∨
        ¬ Matches core (handler.sig.params.filter Param.unpacked) payload.parameters := by
  obtain ⟨wrapper, accepted, called⟩ := unpackable.payload_calledWith core hdl payload
  have alike : UnpackAlike core handler hdl payload ↔ wrapper.calledWith core hdl payload =
      (createRequestUnpackingHandler handler true).calledWith core hdl (.new payload) := by
    constructor
    · intro alike
      obtain ⟨other, same, agree⟩ := alike
      rw [accepted, Except.ok.injEq] at same
      exact same ▸ agree
    · intro agree
      exact ⟨wrapper, accepted, agree⟩
  rw [alike, called]
  by_cases leading : ∀ param ∈ handler.sig.params.tail, param.annotation ≠ .connectionHdl
  · rw [unpackable.request_calledWith_of_leading core hdl payload leading]
    simp only [true_iff]
    exact .inl leading
  · obtain ⟨param, later, isHdl⟩ : ∃ param ∈ handler.sig.params.tail,
        param.annotation = .connectionHdl := by
      by_contra absent
      exact leading fun param later isHdl => absent ⟨param, later, isHdl⟩
    rw [request_calledWith_of_later core hdl payload later isHdl, Option.map_eq_none_iff,
      decodeParams_toOption_eq_none_iff]
    constructor
    · exact .inr
    · intro condition
      exact condition.resolve_left leading

/-- A handle in front of two integers. -/
theorem unpackAlike_twoNumbers :
    UnpackAlike .littleEndian twoNumbers (.connectionHdl 7) ⟨0x1001, [[5], [6]]⟩ :=
  (unpackAlike_iff .littleEndian twoNumbers (.connectionHdl 7) ⟨0x1001, [[5], [6]]⟩
    { hints := by decide, oneHdl := by decide }).mpr (.inl (by decide))

/-- `def handle(value: uint, hdl: ConnectionHdl)`. -/
def trailingHdl : Handler where
  name := .ok "handle"
  sig := ⟨[{ name := "value", annotation := .uint },
    { name := "hdl", annotation := .connectionHdl }], by decide⟩

/-- The payload handler is called with the value and the handle, the request handler
not at all. -/
theorem unpackAlike_trailingHdl_fails :
    ¬ ∀ (core : Core) (handler : Handler) (hdl : PyValue) (payload : Payload),
      handler.sig.Unpackable → UnpackAlike core handler hdl payload := by
  intro every
  obtain ⟨wrapper, accepted, alike⟩ := every .littleEndian trailingHdl (.connectionHdl 7)
    ⟨0x1001, [[5]]⟩ { hints := by decide, oneHdl := by decide }
  cases accepted
  have called : UnpackingWrapper.calledWith .littleEndian
      ⟨trailingHdl, true, classify trailingHdl.sig⟩ (.connectionHdl 7) ⟨0x1001, [[5]]⟩ =
        some [("hdl", .connectionHdl 7), ("value", .int 5)] := by decide
  have refused : (createRequestUnpackingHandler trailingHdl true).calledWith .littleEndian
      (.connectionHdl 7) (.new ⟨0x1001, [[5]]⟩) = none := by decide
  rw [called, refused] at alike
  cases alike

end ObscuraProto
