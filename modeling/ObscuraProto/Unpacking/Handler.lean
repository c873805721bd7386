import ObscuraProto.Payload.Reader
import ObscuraProto.Python.Signature

/-!
# Auto-unpacking wrappers

`_create_unpacking_handler` and `_create_request_unpacking_handler` classify the
parameters of a handler once, at registration, and build the keyword dictionary
of its call from every incoming payload.
-/

namespace ObscuraProto

/-- A callback as registration sees it. -/
structure Handler where
  /-- What `handler.__name__` gives or raises: a `functools.partial` has no name. -/
  name : Except PyExc String
  sig : Signature

/-- The exception whose text has the handler's name in it. -/
def Handler.namedError (handler : Handler) (error : String → PyExc) : PyExc :=
  match handler.name with
  | .ok name => error name
  | .error e => e

/-! ## Typed reads -/

/-- Decoder behind each entry of `type_map`. -/
def decoder (core : Core) : Annotation → Option (Bytes → Except PyExc PyValue)
  | .str => some fun bytes => do
      let text ← core.readString bytes
      match String.fromUTF8? ⟨text.toArray⟩ with
      | some value => return .str value
      | none => throw (.user "UnicodeDecodeError" "invalid UTF-8")
  | .int => some (PayloadReader.decodeInt core)
  | .uint => some (PayloadReader.decodeUint core)
  | .float => some (PayloadReader.decodeFloat core)
  | .bool => some fun bytes => (core.readBool bytes).map .bool
  | .bytes => some fun bytes => do
      return .list ((← core.readBytes bytes).map fun byte => (byte.toNat : Int))
  | .empty | .connectionHdl | .payload | .payloadReader | .other _ => none

/-- The dictionary `type_map` of both wrappers. -/
def typeMap (core : Core) : Annotation → Option (ReaderM PyValue)
  | .str => some (PayloadReader.readString core)
  | .int => some (PayloadReader.readInt core)
  | .uint => some (PayloadReader.readUint core)
  | .float => some (PayloadReader.readFloat core)
  | .bool => some (PayloadReader.readBool core)
  | .bytes => some (PayloadReader.readBytes core)
  | .empty | .connectionHdl | .payload | .payloadReader | .other _ => none

theorem typeMap_eq (core : Core) (hint : Annotation) :
    typeMap core hint = (decoder core hint).map (PayloadReader.readParam core) := by
  cases hint with
  | int => exact congrArg some PayloadReader.readInt_eq
  | uint => exact congrArg some PayloadReader.readUint_eq
  | float => exact congrArg some PayloadReader.readFloat_eq
  | bool => exact congrArg some PayloadReader.readBool_eq
  | str | bytes | empty | connectionHdl | payload | payloadReader | other _ => rfl

def unsupportedHint (param : Param) : PyExc :=
  .typeError s!"Unsupported or missing type hint for parameter '{param.name}'."

/-- The unpacking loop of a wrapper, with the reads it knows.  Parameter names
are distinct, so assigning a key appends it. -/
def readParams (lookup : Annotation → Option (ReaderM PyValue)) :
    List Param → Kwargs → ReaderM Kwargs
  | [], kwargs => return kwargs
  | param :: params, kwargs =>
      match lookup param.annotation with
      | some read => do
          let value ← read
          readParams lookup params (kwargs ++ [(param.name, value)])
      | none => throw (unsupportedHint param)

/-- The dictionary both wrappers start from.  On a client the native side passes
no handle, and the wrapper would pass `None`. -/
def hdlKwargs (hdlParam : Option Param) (receivesHdlFromNative : Bool)
    (nativeHdl : PyValue) : Kwargs :=
  let hdl := if receivesHdlFromNative then nativeHdl else .none
  match hdlParam with
  | some param => [(param.name, hdl)]
  | none => []

/-! ## Payload handlers -/

/-- Classification of the parameters by annotation identity. -/
structure Classified where
  hdlParam : Option Param := none
  payloadParam : Option Param := none
  unpackParams : List Param := []
  deriving DecidableEq, Repr

namespace Classified

/-- One round of the classification loop. -/
def add (classified : Classified) (param : Param) : Classified :=
  match param.annotation with
  | .connectionHdl => { classified with hdlParam := some param }
  | .payload => { classified with payloadParam := some param }
  | .empty => classified
  | _ => { classified with unpackParams := classified.unpackParams ++ [param] }

end Classified

def classify (sig : Signature) : Classified :=
  sig.params.foldl Classified.add {}

/-- The closure `unpacking_wrapper` with what it captures. -/
structure UnpackingWrapper where
  handler : Handler
  receivesHdlFromNative : Bool
  classified : Classified

/-- `_create_unpacking_handler`. -/
def createUnpackingHandler (handler : Handler) (receivesHdlFromNative : Bool) :
    Except PyExc UnpackingWrapper :=
  let classified := classify handler.sig
  if classified.hdlParam.isSome && !receivesHdlFromNative then
    .error <| handler.namedError fun name =>
      .typeError (s!"Handler '{name}' is annotated with ConnectionHdl " ++
        "but is registered on a client, which does not receive it.")
  else if classified.payloadParam.isSome && !classified.unpackParams.isEmpty then
    .error <| handler.namedError fun name =>
      .typeError (s!"Handler '{name}' cannot mix auto-unpacking " ++
        "parameters and a 'Payload' parameter. Choose one method.")
  else
    .ok ⟨handler, receivesHdlFromNative, classified⟩

/-- `f"0x{op_code:04x}"`. -/
def opCodeHex (opCode : Nat) : String :=
  let digits := Nat.toDigits 16 opCode
  "0x" ++ String.ofList (List.replicate (4 - digits.length) '0' ++ digits)

namespace UnpackingWrapper

/-- The error raised when the payload does not fit the signature. -/
def unpackError (wrapper : UnpackingWrapper) (payload : Payload) (e : PyExc) : PyExc :=
  let opCode := opCodeHex payload.opCode
  wrapper.handler.namedError fun name =>
    .typeErrorFrom (s!"Failed to auto-unpack payload for OpCode {opCode} " ++
      s!"in handler '{name}': {e.str}") e

/-- `unpacking_wrapper(*args)` up to the call of the handler: the keyword
dictionary it calls with, or the error it raises instead. -/
def arguments (core : Core) (wrapper : UnpackingWrapper) (nativeHdl : PyValue)
    (payload : Payload) : Except PyExc Kwargs :=
  let handlerKwargs :=
    hdlKwargs wrapper.classified.hdlParam wrapper.receivesHdlFromNative nativeHdl
  match wrapper.classified.payloadParam with
  | some param => .ok (handlerKwargs ++ [(param.name, .payload payload)])
  | none =>
      if wrapper.classified.unpackParams.isEmpty then
        .ok handlerKwargs
      else
        match readParams (typeMap core) wrapper.classified.unpackParams handlerKwargs
            (.new payload) with
        | .ok (kwargs, _) => .ok kwargs
        | .error e => .error (wrapper.unpackError payload e)

end UnpackingWrapper

/-! ## Request handlers -/

/-- The closure `unpacking_request_wrapper` with what it captures. -/
structure RequestWrapper where
  handler : Handler
  receivesHdlFromNative : Bool
  hdlParam : Option Param
  unpackParams : List Param

/-- `_create_request_unpacking_handler`: only a leading parameter can take the
connection handle. -/
def createRequestUnpackingHandler (handler : Handler) (receivesHdlFromNative : Bool) :
    RequestWrapper :=
  match handler.sig.params with
  | first :: rest =>
      if receivesHdlFromNative && first.annotation == .connectionHdl then
        ⟨handler, receivesHdlFromNative, some first, rest⟩
      else
        ⟨handler, receivesHdlFromNative, none, first :: rest⟩
  | [] => ⟨handler, receivesHdlFromNative, none, []⟩

/-- A request handler may also ask for the reader itself. -/
def requestTypeMap (core : Core) : Annotation → Option (ReaderM PyValue)
  | .payloadReader => some (pure .payloadReader)
  | annotation => typeMap core annotation

namespace RequestWrapper

/-- The reads of `unpacking_request_wrapper(*args)`: the keyword dictionary the
handler is called with, or the error that stopped them. -/
def arguments (core : Core) (wrapper : RequestWrapper) (nativeHdl : PyValue)
    (reader : PayloadReader) : Except PyExc Kwargs :=
  let handlerKwargs := hdlKwargs wrapper.hdlParam wrapper.receivesHdlFromNative nativeHdl
  (readParams (requestTypeMap core) wrapper.unpackParams handlerKwargs reader).map (·.1)

end RequestWrapper

/-! ## What the loop computes -/

/-- A sequence of fallible steps succeeds when each of them does. -/
theorem bind_eq_ok_iff {ε α β : Type} {first : Except ε α} {next : α → Except ε β} {result : β} :
    (first >>= next) = .ok result ↔ ∃ value, first = .ok value ∧ next value = .ok result := by
  cases first with
  | error e => simp [bind, Except.bind]
  | ok value => simp [bind, Except.bind]

/-- The keywords read for a list of parameters from a list of raw parameters. -/
def decodeParams (core : Core) : List Param → List Bytes → Except PyExc Kwargs
  | [], _ => .ok []
  | param :: params, bytes =>
      match decoder core param.annotation with
      | none => .error (unsupportedHint param)
      | some decode =>
          match bytes with
          | [] => .error core.endOfPayload
          | first :: rest => do
              let value ← decode first
              return (param.name, value) :: (← decodeParams core params rest)

/-- A parameter that was read has a decoder and a raw parameter it decodes. -/
theorem decodeParams_cons_ok {core : Core} {param : Param} {params : List Param}
    {bytes : List Bytes} {kwargs : Kwargs}
    (read : decodeParams core (param :: params) bytes = .ok kwargs) :
    ∃ decode first rest value others, decoder core param.annotation = some decode ∧
      bytes = first :: rest ∧ decode first = .ok value ∧
      decodeParams core params rest = .ok others ∧ kwargs = (param.name, value) :: others := by
  rw [decodeParams] at read
  split at read
  · cases read
  · next decode entry =>
      cases bytes with
      | nil => cases read
      | cons first rest =>
          obtain ⟨value, decoded, after⟩ := bind_eq_ok_iff.mp read
          obtain ⟨others, later, same⟩ := bind_eq_ok_iff.mp after
          cases same
          exact ⟨decode, first, rest, value, others, entry, rfl, decoded, later, rfl⟩

/-- The next unread parameter is the one at the reader's position. -/
theorem PayloadReader.remaining_of_getElem? {reader : PayloadReader} {bytes : Bytes}
    (next : reader.payload.parameters[reader.position]? = some bytes) :
    reader.remaining = bytes :: reader.advance.remaining := by
  obtain ⟨inBounds, entry⟩ := List.getElem?_eq_some_iff.mp next
  rw [remaining, List.drop_eq_getElem_cons inBounds, entry]
  rfl

theorem PayloadReader.remaining_of_end {reader : PayloadReader}
    (ended : reader.payload.parameters[reader.position]? = none) : reader.remaining = [] := by
  rw [remaining, List.drop_eq_nil_iff]
  exact List.getElem?_eq_none_iff.mp ended

/-- One round of the unpacking loop on a parameter that has a decoder. -/
theorem readParams_cons {core : Core} {lookup : Annotation → Option (ReaderM PyValue)}
    {param : Param} {decode : Bytes → Except PyExc PyValue}
    (entry : lookup param.annotation = some (PayloadReader.readParam core decode))
    (params : List Param) (kwargs : Kwargs) (reader : PayloadReader) :
    (readParams lookup (param :: params) kwargs reader).map (·.1) =
      match reader.remaining with
      | [] => .error core.endOfPayload
      | bytes :: _ =>
          (decode bytes).bind fun value =>
            (readParams lookup params (kwargs ++ [(param.name, value)]) reader.advance).map
              (·.1) := by
  simp only [readParams, entry, bind, StateT.bind]
  cases next : reader.payload.parameters[reader.position]? with
  | none =>
      rw [PayloadReader.readParam_of_end next, PayloadReader.remaining_of_end next]
      rfl
  | some bytes =>
      rw [PayloadReader.readParam_of_getElem? next, PayloadReader.remaining_of_getElem? next]
      cases decoded : decode bytes with
      | error e => simp only [decoded, Except.map, Except.bind]
      | ok value => simp only [decoded, Except.map, Except.bind]

/-- One round of the loop on a parameter that both type maps know alike, `others` being
what the later rounds read. -/
theorem readParams_round {core : Core} {lookup : Annotation → Option (ReaderM PyValue)}
    {param : Param} {params : List Param} {others : List Bytes → Except PyExc Kwargs}
    (entry : lookup param.annotation =
      (decoder core param.annotation).map (PayloadReader.readParam core))
    (later : ∀ kwargs reader, (readParams lookup params kwargs reader).map (·.1) =
      (others reader.remaining).map (kwargs ++ ·))
    (kwargs : Kwargs) (reader : PayloadReader) :
    (readParams lookup (param :: params) kwargs reader).map (·.1) =
      Except.map (kwargs ++ ·)
        (match decoder core param.annotation with
        | none => .error (unsupportedHint param)
        | some decode =>
            match reader.remaining with
            | [] => .error core.endOfPayload
            | first :: rest => do
                let value ← decode first
                return (param.name, value) :: (← others rest)) := by
  cases known : decoder core param.annotation with
  | none =>
      rw [known] at entry
      simp only [readParams, entry, Option.map_none]
      rfl
  | some decode =>
      rw [known] at entry
      rw [readParams_cons entry]
      cases next : reader.payload.parameters[reader.position]? with
      | none =>
          rw [PayloadReader.remaining_of_end next]
          rfl
      | some bytes =>
          rw [PayloadReader.remaining_of_getElem? next]
          simp only [later, bind]
          cases decode bytes with
          | error e => rfl
          | ok value =>
              simp only [Except.bind]
              cases others reader.advance.remaining <;> simp [Except.map, pure, Except.pure]

/-- The loop over `type_map` appends what `decodeParams` reads from the
parameters still unread. -/
theorem readParams_typeMap (core : Core) (params : List Param) (kwargs : Kwargs)
    (reader : PayloadReader) :
    (readParams (typeMap core) params kwargs reader).map (·.1) =
      (decodeParams core params reader.remaining).map (kwargs ++ ·) := by
  induction params generalizing kwargs reader with
  | nil =>
      change Except.ok kwargs = .ok (kwargs ++ [])
      rw [List.append_nil]
  | cons param params ih =>
      rw [decodeParams]
      exact readParams_round (typeMap_eq core param.annotation) ih kwargs reader

theorem createUnpackingHandler_eq_ok_iff {handler : Handler} {receives : Bool}
    {wrapper : UnpackingWrapper} :
    createUnpackingHandler handler receives = .ok wrapper ↔
      wrapper = ⟨handler, receives, classify handler.sig⟩ ∧
        ((classify handler.sig).hdlParam.isSome = true → receives = true) ∧
        ((classify handler.sig).payloadParam.isSome = true →
          (classify handler.sig).unpackParams = []) := by
  simp only [createUnpackingHandler]
  split
  · next refused =>
      simp only [Bool.and_eq_true, Bool.not_eq_true'] at refused
      simp [refused.1, refused.2]
  · next clientOk =>
      have hdlOk : (classify handler.sig).hdlParam.isSome = true → receives = true := by
        simpa using clientOk
      split
      · next mixed =>
          simp only [Bool.and_eq_true, Bool.not_eq_true', List.isEmpty_eq_false_iff] at mixed
          simp [mixed.1, mixed.2]
      · next unmixed =>
          have payloadOk : (classify handler.sig).payloadParam.isSome = true →
              (classify handler.sig).unpackParams = [] := by
            simpa using unmixed
          simp only [Except.ok.injEq]
          exact ⟨fun equal => ⟨equal.symm, hdlOk, payloadOk⟩, fun ⟨equal, _, _⟩ => equal.symm⟩

namespace UnpackingWrapper

/-- The unpacking branch in terms of the parameters alone; with nothing to
unpack it reads nothing. -/
theorem arguments_of_no_payload (core : Core) {wrapper : UnpackingWrapper}
    (noPayload : wrapper.classified.payloadParam = none) (nativeHdl : PyValue)
    (payload : Payload) :
    wrapper.arguments core nativeHdl payload =
      match decodeParams core wrapper.classified.unpackParams payload.parameters with
      | .ok kwargs =>
          .ok (hdlKwargs wrapper.classified.hdlParam wrapper.receivesHdlFromNative nativeHdl ++
            kwargs)
      | .error e => .error (wrapper.unpackError payload e) := by
  let kwargs := hdlKwargs wrapper.classified.hdlParam wrapper.receivesHdlFromNative nativeHdl
  have loop : (readParams (typeMap core) wrapper.classified.unpackParams kwargs
      (.new payload)).map (·.1) =
        (decodeParams core wrapper.classified.unpackParams payload.parameters).map
          (kwargs ++ ·) :=
    readParams_typeMap core wrapper.classified.unpackParams kwargs (.new payload)
  simp only [arguments, noPayload]
  split
  · next nothing =>
      rw [List.isEmpty_iff.mp nothing]
      simp [decodeParams]
  · generalize decodeParams core wrapper.classified.unpackParams payload.parameters =
      decoded at loop ⊢
    change (match readParams (typeMap core) wrapper.classified.unpackParams kwargs
        (.new payload) with
      | .ok (read, _) => Except.ok read
      | .error e => .error (wrapper.unpackError payload e)) = _
    cases read : readParams (typeMap core) wrapper.classified.unpackParams kwargs
        (.new payload) with
    | ok result =>
        rw [read] at loop
        cases decoded with
        | ok others => exact congrArg Except.ok (Except.ok.inj loop)
        | error e => cases loop
    | error e =>
        rw [read] at loop
        cases decoded with
        | ok others => cases loop
        | error other =>
            cases loop
            rfl

end UnpackingWrapper

/-! ## The reads of a request -/

/-- The keywords read for the parameters of a request handler: as for a payload,
and the reader itself for a parameter that asks for it. -/
def decodeRequestParams (core : Core) : List Param → List Bytes → Except PyExc Kwargs
  | [], _ => .ok []
  | param :: params, bytes =>
      if param.annotation = .payloadReader then do
        return (param.name, .payloadReader) :: (← decodeRequestParams core params bytes)
      else
        match decoder core param.annotation with
        | none => .error (unsupportedHint param)
        | some decode =>
            match bytes with
            | [] => .error core.endOfPayload
            | first :: rest => do
                let value ← decode first
                return (param.name, value) :: (← decodeRequestParams core params rest)

theorem requestTypeMap_of_ne (core : Core) {hint : Annotation} (ordinary : hint ≠ .payloadReader) :
    requestTypeMap core hint = typeMap core hint := by
  cases hint <;> first | rfl | exact absurd rfl ordinary

theorem readParams_requestTypeMap (core : Core) (params : List Param) (kwargs : Kwargs)
    (reader : PayloadReader) :
    (readParams (requestTypeMap core) params kwargs reader).map (·.1) =
      (decodeRequestParams core params reader.remaining).map (kwargs ++ ·) := by
  induction params generalizing kwargs reader with
  | nil =>
      change Except.ok kwargs = .ok (kwargs ++ [])
      rw [List.append_nil]
  | cons param params ih =>
      rw [decodeRequestParams]
      by_cases asksReader : param.annotation = .payloadReader
      · have step : readParams (requestTypeMap core) (param :: params) kwargs reader =
            readParams (requestTypeMap core) params (kwargs ++ [(param.name, .payloadReader)])
              reader := by
          rw [readParams, asksReader]
          rfl
        rw [if_pos asksReader, step, ih]
        cases decodeRequestParams core params reader.remaining <;>
          simp [Except.map, bind, Except.bind, pure, Except.pure]
      · rw [if_neg asksReader]
        have lookup := (requestTypeMap_of_ne core asksReader).trans
          (typeMap_eq core param.annotation)
        exact readParams_round lookup ih kwargs reader

theorem RequestWrapper.arguments_eq (core : Core) (wrapper : RequestWrapper) (hdl : PyValue)
    (reader : PayloadReader) :
    wrapper.arguments core hdl reader =
      (decodeRequestParams core wrapper.unpackParams reader.remaining).map
        (hdlKwargs wrapper.hdlParam wrapper.receivesHdlFromNative hdl ++ ·) := by
  rw [arguments, readParams_requestTypeMap]

@[simp] theorem createRequestUnpackingHandler_handler (handler : Handler) (receives : Bool) :
    (createRequestUnpackingHandler handler receives).handler = handler := by
  rw [createRequestUnpackingHandler]
  repeat' split
  all_goals rfl

end ObscuraProto
