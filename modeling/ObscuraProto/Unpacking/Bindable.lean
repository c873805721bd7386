import ObscuraProto.Unpacking.Handler

/-!
# Calls that bind

The payload wrapper passes a parameter by keyword exactly when classification
kept it: a hinted parameter that is not overtaken by a later one of the same
handle or payload type.  Whether the call binds, and whether it is the call the
registration decorators document, are then properties of the signature alone.
-/

namespace ObscuraProto

/-! ## Classification -/

/-- The parameter is unpacked from the payload. -/
def Param.unpacked (param : Param) : Bool :=
  param.hinted && param.annotation != .connectionHdl && param.annotation != .payload

/-- The last parameter with the given annotation. -/
def Signature.lastWith (sig : Signature) (hint : Annotation) : Option Param :=
  (sig.params.filter fun param => param.annotation == hint).getLast?

/-- What the classification loop keeps, independently of its accumulator. -/
theorem foldl_add (params : List Param) (classified : Classified) :
    params.foldl Classified.add classified =
      { hdlParam := (params.filter fun param => param.annotation == .connectionHdl).getLast?.or
          classified.hdlParam
        payloadParam := (params.filter fun param => param.annotation == .payload).getLast?.or
          classified.payloadParam
        unpackParams := classified.unpackParams ++ params.filter Param.unpacked } := by
  induction params generalizing classified with
  | nil => simp
  | cons param params ih =>
      rw [List.foldl_cons, ih]
      cases hint : param.annotation <;>
        simp [Classified.add, hint, Param.unpacked, Param.hinted, List.getLast?_cons]

theorem classify_eq (sig : Signature) :
    classify sig =
      { hdlParam := sig.lastWith .connectionHdl
        payloadParam := sig.lastWith .payload
        unpackParams := sig.params.filter Param.unpacked } := by
  rw [classify, foldl_add]
  simp [Signature.lastWith]

namespace Signature

/-- The wrapper passes this parameter: it is hinted, and no later parameter with
the same handle or payload annotation replaced it. -/
def Passed (sig : Signature) (param : Param) : Prop :=
  param.hinted = true ∧
    (param.annotation = .connectionHdl ∨ param.annotation = .payload →
      sig.lastWith param.annotation = some param)

instance (sig : Signature) (param : Param) : Decidable (sig.Passed param) := by
  unfold Passed
  infer_instance

theorem mem_of_lastWith {sig : Signature} {hint : Annotation} {param : Param}
    (last : sig.lastWith hint = some param) :
    param ∈ sig.params ∧ param.annotation = hint := by
  have member := List.mem_of_getLast? last
  simpa using member

/-- The three groups kept by classification hold exactly the passed
parameters. -/
theorem mem_classified_iff (sig : Signature) (param : Param) :
    (sig.lastWith .connectionHdl = some param ∨ sig.lastWith .payload = some param ∨
        param ∈ sig.params.filter Param.unpacked) ↔
      param ∈ sig.params ∧ sig.Passed param := by
  constructor
  · intro kept
    rcases kept with last | last | unpacked
    · obtain ⟨member, hint⟩ := mem_of_lastWith last
      exact ⟨member, by simp [Param.hinted, hint], fun _ => hint ▸ last⟩
    · obtain ⟨member, hint⟩ := mem_of_lastWith last
      exact ⟨member, by simp [Param.hinted, hint], fun _ => hint ▸ last⟩
    · simp only [List.mem_filter, Param.unpacked, Bool.and_eq_true, bne_iff_ne] at unpacked
      obtain ⟨member, ⟨hinted, notHdl⟩, notPayload⟩ := unpacked
      refine ⟨member, hinted, ?_⟩
      intro special
      cases special with
      | inl isHdl => exact absurd isHdl notHdl
      | inr isPayload => exact absurd isPayload notPayload
  · intro passed
    rcases passed with ⟨member, hinted, last⟩
    by_cases isHdl : param.annotation = .connectionHdl
    · exact .inl (isHdl ▸ last (.inl isHdl))
    by_cases isPayload : param.annotation = .payload
    · exact .inr (.inl (isPayload ▸ last (.inr isPayload)))
    · exact .inr (.inr (by simp [Param.unpacked, member, hinted, isHdl, isPayload]))

end Signature

/-! ## The keywords of a call -/

/-- The raw parameters of a payload match the hints in order; a payload may
carry more. -/
def Matches (core : Core) : List Param → List Bytes → Prop
  | [], _ => True
  | _ :: _, [] => False
  | param :: params, bytes :: rest =>
      (∃ decode value, decoder core param.annotation = some decode ∧
        decode bytes = .ok value) ∧ Matches core params rest

theorem decodeParams_of_matches {core : Core} {params : List Param} {bytes : List Bytes}
    (matching : Matches core params bytes) :
    ∃ kwargs, decodeParams core params bytes = .ok kwargs ∧
      kwargs.map Prod.fst = params.map Param.name := by
  induction params generalizing bytes with
  | nil => exact ⟨[], rfl, rfl⟩
  | cons param params ih =>
      cases bytes with
      | nil => exact absurd matching id
      | cons first rest =>
          obtain ⟨⟨decode, value, entry, decoded⟩, later⟩ := matching
          obtain ⟨kwargs, read, names⟩ := ih later
          refine ⟨(param.name, value) :: kwargs, ?_, by simp [names]⟩
          simp [decodeParams, entry, decoded, read, bind, Except.bind, pure, Except.pure]

theorem decodeParams_names {core : Core} {params : List Param} {bytes : List Bytes}
    {kwargs : Kwargs} (read : decodeParams core params bytes = .ok kwargs) :
    kwargs.map Prod.fst = params.map Param.name := by
  induction params generalizing bytes kwargs with
  | nil => cases read; rfl
  | cons param params ih =>
      obtain ⟨-, -, rest, value, others, -, -, -, later, rfl⟩ := decodeParams_cons_ok read
      rw [List.map_cons, List.map_cons, ih later]

theorem hdlKwargs_names (hdlParam : Option Param) (receives : Bool) (nativeHdl : PyValue) :
    (hdlKwargs hdlParam receives nativeHdl).map Prod.fst = hdlParam.toList.map Param.name := by
  cases hdlParam <;> rfl

namespace UnpackingWrapper

/-- When the unpacked parameters can be read the wrapper calls its handler, with one
keyword for every passed parameter. -/
theorem arguments_of_decoded {core : Core} {handler : Handler} {receives : Bool}
    {wrapper : UnpackingWrapper}
    (accepted : createUnpackingHandler handler receives = .ok wrapper)
    (hdl : PyValue) (payload : Payload) {read : Kwargs}
    (decoded : decodeParams core (handler.sig.params.filter Param.unpacked)
      payload.parameters = .ok read) :
    ∃ kwargs, wrapper.arguments core hdl payload = .ok kwargs ∧
      ∀ name, name ∈ kwargs.map Prod.fst ↔
        ∃ param ∈ handler.sig.params, handler.sig.Passed param ∧ param.name = name := by
  obtain ⟨rfl, _, exclusive⟩ := createUnpackingHandler_eq_ok_iff.mp accepted
  simp only [classify_eq] at exclusive ⊢
  have kept (name : String) :
      (∃ param ∈ handler.sig.params, handler.sig.Passed param ∧ param.name = name) ↔
        ∃ param, (handler.sig.lastWith .connectionHdl = some param ∨
          handler.sig.lastWith .payload = some param ∨
          param ∈ handler.sig.params.filter Param.unpacked) ∧ param.name = name := by
    simp only [handler.sig.mem_classified_iff, and_assoc]
  cases last : handler.sig.lastWith .payload with
  | some param =>
      have noUnpack := exclusive (by simp [last])
      refine ⟨_, rfl, fun name => ?_⟩
      rw [kept, List.map_append, hdlKwargs_names, last, noUnpack]
      simp [or_and_right, exists_or, eq_comm]
  | none =>
      refine ⟨_, by rw [arguments_of_no_payload core rfl, decoded], fun name => ?_⟩
      rw [kept, List.map_append, hdlKwargs_names, last, decodeParams_names decoded]
      simp [or_and_right, exists_or]

theorem arguments_of_matches {core : Core} {handler : Handler} {receives : Bool}
    {wrapper : UnpackingWrapper}
    (accepted : createUnpackingHandler handler receives = .ok wrapper)
    (hdl : PyValue) (payload : Payload)
    (matching : Matches core (handler.sig.params.filter Param.unpacked) payload.parameters) :
    ∃ kwargs, wrapper.arguments core hdl payload = .ok kwargs ∧
      ∀ name, name ∈ kwargs.map Prod.fst ↔
        ∃ param ∈ handler.sig.params, handler.sig.Passed param ∧ param.name = name := by
  obtain ⟨read, decoded, -⟩ := decodeParams_of_matches matching
  exact wrapper.arguments_of_decoded accepted hdl payload decoded

end UnpackingWrapper

/-! ## The documented call -/

/-- The arguments the native side gives an untyped handler, as the `on_payload`
docstrings put it. -/
def nativeArguments (receives : Bool) (hdl : PyValue) (payload : Payload) : List PyValue :=
  if receives then [hdl, .payload payload] else [.payload payload]

/-- The wrapper's call binds, and the untyped forms of the documentation get
their arguments. -/
structure DocumentedCall (sig : Signature) (receives : Bool) (hdl : PyValue)
    (payload : Payload) (outcome : Except PyExc Kwargs) : Prop where
  binds : ∃ kwargs, outcome = .ok kwargs ∧ sig.bindKeywords kwargs = .ok kwargs
  untyped : (∀ param ∈ sig.params, param.hinted = false) →
    ∀ kwargs, outcome = .ok kwargs →
      kwargs.map Prod.snd = nativeArguments receives hdl payload
  leadingHdl : receives = true → ∀ first rest, sig.params = first :: rest →
    first.name = "hdl" → first.hinted = false → (∃ param ∈ rest, param.hinted = true) →
      ∀ kwargs, outcome = .ok kwargs → ("hdl", hdl) ∈ kwargs

/-- Condition on a signature under which its calls are the documented ones. -/
structure Signature.Covered (sig : Signature) (receives : Bool) : Prop where
  /-- Every required parameter is hinted, can be passed by keyword, and is the
  last one of its handle or payload annotation. -/
  required : ∀ param ∈ sig.params, param.required = true →
    param.byKeyword = true ∧ sig.Passed param
  /-- A hinted parameter that is positional-only or variadic needs `**kwargs`. -/
  keywords : ∀ param ∈ sig.params, sig.Passed param →
    param.byKeyword = true ∨ ∃ other ∈ sig.params, other.kind = .varKeyword
  hinted : ∃ param ∈ sig.params, param.hinted = true
  leading : receives = true → ∀ first ∈ sig.params.head?,
    ¬(first.name = "hdl" ∧ first.hinted = false)

namespace Signature

theorem acceptsKeyword_iff {sig : Signature} {param : Param} (member : param ∈ sig.params) :
    sig.acceptsKeyword param.name = true ↔
      param.byKeyword = true ∨ ∃ other ∈ sig.params, other.kind = .varKeyword := by
  simp only [acceptsKeyword, List.any_eq_true, Bool.or_eq_true, Bool.and_eq_true, beq_iff_eq]
  constructor
  · intro accepted
    rcases accepted with ⟨other, otherMem, ⟨byKeyword, sameName⟩ | variadic⟩
    · exact .inl (sig.eq_of_name_eq otherMem member sameName ▸ byKeyword)
    · exact .inr ⟨other, otherMem, variadic⟩
  · intro accepted
    rcases accepted with byKeyword | ⟨other, otherMem, variadic⟩
    · exact ⟨param, member, .inl ⟨byKeyword, rfl⟩⟩
    · exact ⟨other, otherMem, .inr variadic⟩

/-- Binding a call whose keywords are the passed parameters. -/
theorem bindKeywords_passed_iff (sig : Signature) {kwargs : Kwargs}
    (names : ∀ name, name ∈ kwargs.map Prod.fst ↔
      ∃ param ∈ sig.params, sig.Passed param ∧ param.name = name) :
    sig.bindKeywords kwargs = .ok kwargs ↔
      (∀ param ∈ sig.params, sig.Passed param →
        param.byKeyword = true ∨ ∃ other ∈ sig.params, other.kind = .varKeyword) ∧
      ∀ param ∈ sig.params, param.required = true →
        param.byKeyword = true ∧ sig.Passed param := by
  have accepted : (∀ entry ∈ kwargs, sig.acceptsKeyword entry.1 = true) ↔
      ∀ param ∈ sig.params, sig.Passed param →
        param.byKeyword = true ∨ ∃ other ∈ sig.params, other.kind = .varKeyword := by
    constructor
    · intro every param member passed
      obtain ⟨entry, entryMem, sameName⟩ :=
        List.mem_map.mp ((names param.name).mpr ⟨param, member, passed, rfl⟩)
      rw [← acceptsKeyword_iff member, ← sameName]
      exact every entry entryMem
    · intro every entry entryMem
      obtain ⟨param, member, passed, sameName⟩ :=
        (names entry.1).mp (List.mem_map_of_mem entryMem)
      rw [← sameName, acceptsKeyword_iff member]
      exact every param member passed
  have bound (param : Param) (member : param ∈ sig.params) :
      binds kwargs param = true ↔ param.byKeyword = true ∧ sig.Passed param := by
    rw [binds_iff, names]
    constructor
    · intro bound
      rcases bound with ⟨byKeyword, other, otherMem, passed, sameName⟩
      exact ⟨byKeyword, sig.eq_of_name_eq otherMem member sameName ▸ passed⟩
    · intro bound
      exact ⟨bound.1, param, member, bound.2, rfl⟩
  rw [bindKeywords_eq_ok_iff, accepted]
  apply and_congr_right
  intro keywords
  apply forall₂_congr
  intro param member
  rw [bound param member]

end Signature

section Documented

variable {sig : Signature} {receives : Bool} {hdl : PyValue} {payload : Payload}
  {kwargs : Kwargs}

/-- Without a hint nothing is passed, and the documentation promises arguments. -/
theorem DocumentedCall.hinted
    (documented : DocumentedCall sig receives hdl payload (.ok kwargs))
    (names : ∀ name ∈ kwargs.map Prod.fst,
      ∃ param ∈ sig.params, sig.Passed param ∧ param.name = name) :
    ∃ param ∈ sig.params, param.hinted = true := by
  by_contra none
  have untyped : ∀ param ∈ sig.params, param.hinted = false := by
    simpa using none
  have given := documented.untyped untyped kwargs rfl
  cases kwargs with
  | nil => cases receives <;> simp [nativeArguments] at given
  | cons entry rest =>
      obtain ⟨param, member, passed, -⟩ := names entry.1 (by simp)
      exact absurd passed.1 (by simp [untyped param member])

/-- An unannotated leading `hdl` is not passed. -/
theorem DocumentedCall.leading
    (documented : DocumentedCall sig receives hdl payload (.ok kwargs))
    (names : ∀ name ∈ kwargs.map Prod.fst,
      ∃ param ∈ sig.params, sig.Passed param ∧ param.name = name)
    (serverSide : receives = true) {first : Param} (head : first ∈ sig.params.head?) :
    ¬(first.name = "hdl" ∧ first.hinted = false) := by
  intro leading
  rcases leading with ⟨isHdl, untyped⟩
  obtain ⟨rest, shape⟩ : ∃ rest, sig.params = first :: rest := List.head?_eq_some_iff.mp head
  obtain ⟨param, member, paramHinted⟩ := documented.hinted names
  have later : param ∈ rest := by
    rw [shape, List.mem_cons] at member
    apply member.resolve_left
    intro same
    simp [same, untyped] at paramHinted
  have given := documented.leadingHdl serverSide first rest shape isHdl untyped
    ⟨param, later, paramHinted⟩ kwargs rfl
  obtain ⟨other, otherMem, passed, sameName⟩ :=
    names "hdl" (List.mem_map_of_mem (f := Prod.fst) given)
  have firstMem : first ∈ sig.params := by simp [shape]
  have same := sig.eq_of_name_eq otherMem firstMem (sameName.trans isHdl.symm)
  simp [same, Signature.Passed, untyped] at passed

/-- With a hint and no leading `hdl` the documentation promises nothing but the
binding. -/
theorem Signature.Covered.documented (covered : sig.Covered receives)
    (bound : sig.bindKeywords kwargs = .ok kwargs) :
    DocumentedCall sig receives hdl payload (.ok kwargs) where
  binds := ⟨kwargs, rfl, bound⟩
  untyped untyped := by
    obtain ⟨param, member, hinted⟩ := covered.hinted
    simp [untyped param member] at hinted
  leadingHdl serverSide first rest shape isHdl untyped :=
    absurd ⟨isHdl, untyped⟩ (covered.leading serverSide first (by simp [shape]))

end Documented

/-- For an accepted handler and a matching payload, the wrapper makes the
documented call exactly when the signature is covered. -/
theorem unpackingWrapper_call_documented_iff (core : Core) (handler : Handler)
    (receives : Bool) (wrapper : UnpackingWrapper)
    (accepted : createUnpackingHandler handler receives = .ok wrapper)
    (hdl : PyValue) (payload : Payload)
    (matching : Matches core (handler.sig.params.filter Param.unpacked) payload.parameters) :
    DocumentedCall handler.sig receives hdl payload (wrapper.arguments core hdl payload) ↔
      handler.sig.Covered receives := by
  obtain ⟨kwargs, called, names⟩ := wrapper.arguments_of_matches accepted hdl payload matching
  have binding := handler.sig.bindKeywords_passed_iff names
  rw [called]
  constructor
  · intro documented
    obtain ⟨given, same, bound⟩ := documented.binds
    cases same
    obtain ⟨keywords, required⟩ := binding.mp bound
    have passed := fun name => (names name).mp
    exact
      { required
        keywords
        hinted := documented.hinted passed
        leading := fun serverSide _ => documented.leading passed serverSide }
  · intro covered
    exact covered.documented (binding.mpr ⟨covered.keywords, covered.required⟩)

/-- The handler of the quick start: `def handle(hdl, data: str)`. -/
def quickStartHandler : Handler where
  name := .ok "handle"
  sig := ⟨[{ name := "hdl" }, { name := "data", annotation := .str }], by decide⟩

/-- The same handler with the handle annotated. -/
def typedHandler : Handler where
  name := .ok "handle"
  sig := ⟨[{ name := "hdl", annotation := .connectionHdl },
    { name := "value", annotation := .uint }], by decide⟩

theorem typedHandler_documented :
    DocumentedCall typedHandler.sig true (.connectionHdl 7) ⟨0x1001, [[5]]⟩
      (UnpackingWrapper.arguments .littleEndian
        ⟨typedHandler, true, classify typedHandler.sig⟩ (.connectionHdl 7)
        ⟨0x1001, [[5]]⟩) :=
  (unpackingWrapper_call_documented_iff .littleEndian typedHandler true _ rfl
    (.connectionHdl 7) ⟨0x1001, [[5]]⟩
    ⟨⟨_, .int 5, rfl, by decide⟩, trivial⟩).mpr
    { required := by decide
      keywords := by decide
      hinted := by decide
      leading := by decide }

/-- The quick-start handler is accepted, and a payload with its one string
parameter makes a call that lacks `hdl`. -/
theorem quickStartHandler_not_documented :
    ¬ ∀ (core : Core) (handler : Handler) (receives : Bool) (wrapper : UnpackingWrapper),
      createUnpackingHandler handler receives = .ok wrapper →
      ∀ (hdl : PyValue) (payload : Payload),
        Matches core (handler.sig.params.filter Param.unpacked) payload.parameters →
        DocumentedCall handler.sig receives hdl payload
          (wrapper.arguments core hdl payload) := by
  intro every
  have documented := every .littleEndian quickStartHandler true
    ⟨quickStartHandler, true, classify quickStartHandler.sig⟩ rfl (.connectionHdl 7)
    ⟨0x1001, [[72, 105]]⟩ ⟨⟨_, .str "Hi", rfl, by decide⟩, trivial⟩
  obtain ⟨kwargs, called, bound⟩ := documented.binds
  have call : UnpackingWrapper.arguments .littleEndian
      ⟨quickStartHandler, true, classify quickStartHandler.sig⟩ (.connectionHdl 7)
      ⟨0x1001, [[72, 105]]⟩ = .ok [("data", .str "Hi")] := by decide
  cases call.symm.trans called
  exact absurd bound (by decide)

end ObscuraProto
