import ObscuraProto.Payload.Core

/-!
# `PayloadReader`

A reader walks over the parameters of one payload.  The typed reads are the
bound methods: `read_int`, `read_uint` and `read_float` look at the size of the
next parameter to choose the type they read it with.
-/

namespace ObscuraProto

/-- A reader over a payload, at the index of its next parameter. -/
structure PayloadReader where
  payload : Payload
  position : Nat
  deriving DecidableEq, Repr

abbrev ReaderM := StateT PayloadReader (Except PyExc)

namespace PayloadReader

variable (core : Core)

/-- `PayloadReader(payload)`. -/
def new (payload : Payload) : PayloadReader := ⟨payload, 0⟩

/-- The parameters still to be read. -/
def remaining (reader : PayloadReader) : List Bytes :=
  reader.payload.parameters.drop reader.position

/-- The reader after one parameter was consumed. -/
def advance (reader : PayloadReader) : PayloadReader :=
  { reader with position := reader.position + 1 }

/-- Bytes of the next parameter, which stays unread. -/
def peek : ReaderM Bytes := fun reader =>
  match reader.payload.parameters[reader.position]? with
  | none => .error core.endOfPayload
  | some bytes => .ok (bytes, reader)

/-- `peek_next_param_size`. -/
def peekNextParamSize : ReaderM Nat := do
  return (← peek core).length

/-- Consume the next parameter and convert its bytes. -/
def readParam {α : Type} (convert : Bytes → Except PyExc α) : ReaderM α := do
  let bytes ← peek core
  let value ← convert bytes
  modify advance
  return value

/-- `read_param<T>` for an integer type. -/
def readIntParam (type : IntType) : ReaderM PyValue := do
  return .int (← readParam core fun bytes => .ok (core.readInt type bytes))

/-- `read_string`: the returned `std::string` is decoded as UTF-8. -/
def readString : ReaderM PyValue :=
  readParam core fun bytes => do
    let text ← core.readString bytes
    match String.fromUTF8? ⟨text.toArray⟩ with
    | some value => return .str value
    | none => throw (.user "UnicodeDecodeError" "invalid UTF-8")

/-- `read_bytes`: a `byte_vector` converts to a Python list of integers. -/
def readBytes : ReaderM PyValue :=
  readParam core fun bytes => do
    return .list ((← core.readBytes bytes).map fun byte => (byte.toNat : Int))

def readBool : ReaderM PyValue := do
  return .bool (← readParam core core.readBool)

def readInt : ReaderM PyValue := do
  let size ← peekNextParamSize core
  match size with
  | 1 => readIntParam core .int8
  | 2 => readIntParam core .int16
  | 4 => readIntParam core .int32
  | 8 => readIntParam core .int64
  | _ => throw (.runtimeError s!"Invalid size for a signed integer parameter: {size}")

def readUint : ReaderM PyValue := do
  let size ← peekNextParamSize core
  match size with
  | 1 => readIntParam core .uint8
  | 2 => readIntParam core .uint16
  | 4 => readIntParam core .uint32
  | 8 => readIntParam core .uint64
  | _ => throw (.runtimeError s!"Invalid size for an unsigned integer parameter: {size}")

def readFloat : ReaderM PyValue := do
  let size ← peekNextParamSize core
  match size with
  | 4 => return .float (← readParam core core.readFloat)
  | 8 => return .float (← readParam core core.readDouble)
  | _ => throw (.runtimeError s!"Invalid size for a float/double parameter: {size}")

/-! ## One parameter at a time -/

/-- The value `read_int` gives for the bytes of one parameter. -/
def decodeInt (bytes : Bytes) : Except PyExc PyValue :=
  match bytes.length with
  | 1 => .ok (.int (core.readInt .int8 bytes))
  | 2 => .ok (.int (core.readInt .int16 bytes))
  | 4 => .ok (.int (core.readInt .int32 bytes))
  | 8 => .ok (.int (core.readInt .int64 bytes))
  | size => .error (.runtimeError s!"Invalid size for a signed integer parameter: {size}")

/-- The value `read_uint` gives for the bytes of one parameter. -/
def decodeUint (bytes : Bytes) : Except PyExc PyValue :=
  match bytes.length with
  | 1 => .ok (.int (core.readInt .uint8 bytes))
  | 2 => .ok (.int (core.readInt .uint16 bytes))
  | 4 => .ok (.int (core.readInt .uint32 bytes))
  | 8 => .ok (.int (core.readInt .uint64 bytes))
  | size => .error (.runtimeError s!"Invalid size for an unsigned integer parameter: {size}")

/-- The value `read_float` gives for the bytes of one parameter. -/
def decodeFloat (bytes : Bytes) : Except PyExc PyValue :=
  match bytes.length with
  | 4 => (core.readFloat bytes).map .float
  | 8 => (core.readDouble bytes).map .float
  | size => .error (.runtimeError s!"Invalid size for a float/double parameter: {size}")

variable {core} {reader : PayloadReader} {bytes : Bytes}
variable {α : Type} {convert : Bytes → Except PyExc α}

theorem readParam_of_getElem?
    (next : reader.payload.parameters[reader.position]? = some bytes) :
    readParam core convert reader = (convert bytes).map (·, reader.advance) := by
  simp only [readParam, bind, StateT.bind, peek, next, Except.bind]
  cases convert bytes <;> rfl

theorem readParam_of_end (ended : reader.payload.parameters[reader.position]? = none) :
    readParam core convert reader = .error core.endOfPayload := by
  simp only [readParam, bind, StateT.bind, peek, ended, Except.bind]

private theorem map_readParam (image : α → PyValue) :
    (do return image (← readParam core convert) : ReaderM PyValue) =
      readParam core fun bytes => (convert bytes).map image := by
  funext reader
  cases next : reader.payload.parameters[reader.position]? with
  | none => simp only [bind, StateT.bind, readParam_of_end next, Except.bind]
  | some bytes =>
      simp only [bind, StateT.bind, readParam_of_getElem? next, Except.bind]
      cases convert bytes <;> rfl

/-- A method that looks at the size first is a read with one decoder, when the
branch of every size agrees with that decoder. -/
private theorem peekSize_bind {branch : Nat → ReaderM PyValue}
    {decode : Bytes → Except PyExc PyValue}
    (branches : ∀ (reader : PayloadReader) (bytes : Bytes),
      reader.payload.parameters[reader.position]? = some bytes →
        branch bytes.length reader = (decode bytes).map (·, reader.advance)) :
    (do let size ← peekNextParamSize core; branch size) = readParam core decode := by
  funext reader
  cases next : reader.payload.parameters[reader.position]? with
  | none =>
      simp only [bind, StateT.bind, peekNextParamSize, peek, next, Except.bind,
        readParam_of_end next]
  | some bytes =>
      rw [readParam_of_getElem? next, ← branches reader bytes next]
      simp only [bind, StateT.bind, peekNextParamSize, peek, next, Except.bind]
      rfl

theorem readBool_eq : readBool core = readParam core fun bytes =>
    (core.readBool bytes).map .bool :=
  map_readParam _

theorem readInt_eq : readInt core = readParam core (decodeInt core) := by
  apply peekSize_bind
  intro reader bytes next
  rw [decodeInt]
  split <;> rename_i size
  all_goals first
    | rfl
    | (simp only [size, readIntParam, map_readParam, readParam_of_getElem? next]; rfl)

theorem readUint_eq : readUint core = readParam core (decodeUint core) := by
  apply peekSize_bind
  intro reader bytes next
  rw [decodeUint]
  split <;> rename_i size
  all_goals first
    | rfl
    | (simp only [size, readIntParam, map_readParam, readParam_of_getElem? next]; rfl)

theorem readFloat_eq : readFloat core = readParam core (decodeFloat core) := by
  apply peekSize_bind
  intro reader bytes next
  rw [decodeFloat]
  split <;> rename_i size
  all_goals first
    | rfl
    | simp only [size, map_readParam, readParam_of_getElem? next]

end PayloadReader

end ObscuraProto
