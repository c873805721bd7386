import ObscuraProto.Payload.Builder
import ObscuraProto.Payload.Reader

/-!
# Integers through the builder and the reader

The builder picks the narrowest integer type that contains a value, signed
before unsigned; the wire keeps only the width, and a reader decides the sign on
its own.  An integer therefore survives exactly when the reader's type of that
width contains it.
-/

namespace ObscuraProto

open Library.TwosComplement

namespace IntType

/-- The signed type `read_int` uses for the width of a type. -/
def asSigned : IntType → IntType
  | int8 | uint8 => int8
  | int16 | uint16 => int16
  | int32 | uint32 => int32
  | int64 | uint64 => int64

@[simp] theorem asSigned_width (type : IntType) : type.asSigned.width = type.width := by
  cases type <;> rfl

/-- The unsigned type `read_uint` uses for the width of a type. -/
def asUnsigned : IntType → IntType
  | int8 | uint8 => uint8
  | int16 | uint16 => uint16
  | int32 | uint32 => uint32
  | int64 | uint64 => uint64

@[simp] theorem asUnsigned_width (type : IntType) : type.asUnsigned.width = type.width := by
  cases type <;> rfl

/-- An integer type has one of the sizes the readers know. -/
theorem width_mem (type : IntType) : type.width ∈ [1, 2, 4, 8] := by
  cases type <;> decide

/-- The selected type, band by band. -/
theorem select_eq (value : Int) : select value =
    if -128 ≤ value ∧ value < 128 then some int8
    else if 0 ≤ value ∧ value < 256 then some uint8
    else if -32768 ≤ value ∧ value < 32768 then some int16
    else if 0 ≤ value ∧ value < 65536 then some uint16
    else if -2147483648 ≤ value ∧ value < 2147483648 then some int32
    else if 0 ≤ value ∧ value < 4294967296 then some uint32
    else if -9223372036854775808 ≤ value ∧ value < 9223372036854775808 then some int64
    else if 0 ≤ value ∧ value < 18446744073709551616 then some uint64
    else none := by
  have step (type : IntType) (rest : List IntType) :
      (type :: rest).find? (·.inRange value) =
        if type.inRange value = true then some type else rest.find? (·.inRange value) := by
    rw [List.find?_cons]
    split <;> simp_all
  simp only [select, declared, step, inRange_iff, List.find?_nil]

/-- Every integer of the 64-bit ranges has a type. -/
theorem exists_select {value : Int} (low : -2 ^ 63 ≤ value) (high : value < 2 ^ 64) :
    ∃ type, select value = some type := by
  rw [select_eq]
  repeat' split
  all_goals first
    | exact ⟨_, rfl⟩
    | omega

theorem inRange_of_select {value : Int} {type : IntType} (selected : select value = some type) :
    type.inRange value = true := by
  have fits := List.find?_some selected
  exact fits

/-- The integer is outside the bands that only an unsigned type of its width
contains. -/
def SignedBand (value : Int) : Prop :=
  ¬(2 ^ 7 ≤ value ∧ value < 2 ^ 8) ∧ ¬(2 ^ 15 ≤ value ∧ value < 2 ^ 16) ∧
    ¬(2 ^ 31 ≤ value ∧ value < 2 ^ 32)

instance (value : Int) : Decidable (SignedBand value) := by
  unfold SignedBand
  infer_instance

theorem inRange_asSigned_iff {value : Int} {type : IntType} (high : value < 2 ^ 63)
    (selected : select value = some type) :
    type.asSigned.inRange value = true ↔ SignedBand value := by
  rw [select_eq] at selected
  rw [SignedBand]
  repeat' split at selected
  all_goals
    simp only [Option.some.injEq, reduceCtorEq] at selected
  all_goals
    subst selected
    simp only [asSigned, inRange_iff]
    omega

/-- A nonnegative integer fits the unsigned type of the width it is stored at. -/
theorem inRange_asUnsigned {value : Int} {type : IntType} (low : 0 ≤ value)
    (selected : select value = some type) : type.asUnsigned.inRange value = true := by
  have fits := inRange_of_select selected
  rw [inRange_iff] at fits ⊢
  cases type <;> simp only [asUnsigned] at fits ⊢ <;> omega

end IntType

namespace PayloadReader

variable {core : Core} {reader : PayloadReader} {bytes : Bytes}

/-- `read_int` takes a parameter of an integer width as the signed type of that
width, whatever type wrote it. -/
theorem readInt_of_getElem? (type : IntType)
    (next : reader.payload.parameters[reader.position]? = some bytes)
    (size : bytes.length = type.width) :
    readInt core reader = .ok (.int (core.readInt type.asSigned bytes), reader.advance) := by
  rw [readInt_eq, readParam_of_getElem? next, decodeInt, size]
  cases type <;> rfl

/-- The decoder of `read_uint` on a parameter of an integer width. -/
theorem decodeUint_of_width (type : IntType) (size : bytes.length = type.width) :
    decodeUint core bytes = .ok (.int (core.readInt type.asUnsigned bytes)) := by
  rw [decodeUint, size]
  cases type <;> rfl

/-- What was stored for a nonnegative integer is decoded to it. -/
theorem decodeUint_encode {value : Int} {type : IntType} (low : 0 ≤ value)
    (selected : IntType.select value = some type) :
    decodeUint core (encode core.byteOrder type.width value) = .ok (.int value) := by
  have stored := (core.readInt_store_eq_iff type.asUnsigned value).mpr
    (IntType.inRange_asUnsigned low selected)
  rw [IntType.asUnsigned_width] at stored
  rw [decodeUint_of_width type (encode_length _ _ _), stored]

end PayloadReader

/-- Append a value to a builder and read that parameter back from the payload
that is built. -/
def appendAndRead (core : Core) (builder : PayloadBuilder) (value : PyValue)
    (read : ReaderM PyValue) : Except PyExc PyValue := do
  let appended ← builder.addParam core value
  let (result, _) ← read ⟨appended.build, builder.parameters.length⟩
  return result

/-- The parameter appended for an integer is its encoding at the selected
width. -/
theorem appendAndRead_int (core : Core) (builder : PayloadBuilder) {value : Int}
    {type : IntType} (selected : IntType.select value = some type)
    {read : ReaderM PyValue} {result : PyValue}
    (reads : ∀ reader : PayloadReader,
      reader.payload.parameters[reader.position]? =
          some (encode core.byteOrder type.width value) →
        read reader = .ok (result, reader.advance)) :
    appendAndRead core builder (.int value) read = .ok result := by
  have appended := PayloadBuilder.addParam_int core builder selected
  simp only [appendAndRead, appended, bind, Except.bind]
  rw [reads _ (by simp [PayloadBuilder.build])]
  rfl

/-- `read_int` gives back the integer that was appended exactly outside the
bands the builder stores as unsigned. -/
theorem readInt_addParam_iff (core : Core) (builder : PayloadBuilder) (value : Int)
    (low : -2 ^ 63 ≤ value) (high : value < 2 ^ 63) :
    appendAndRead core builder (.int value) (PayloadReader.readInt core) =
        .ok (.int value) ↔
      IntType.SignedBand value := by
  obtain ⟨type, selected⟩ := IntType.exists_select low (by omega)
  have read : appendAndRead core builder (.int value) (PayloadReader.readInt core) = _ :=
    appendAndRead_int core builder selected fun reader next =>
      PayloadReader.readInt_of_getElem? type next (encode_length _ _ _)
  rw [read, ← IntType.inRange_asSigned_iff high selected, ← core.readInt_store_eq_iff]
  simp

theorem readInt_addParam_neg :
    appendAndRead .littleEndian ⟨0x1001, []⟩ (.int (-120))
        (PayloadReader.readInt .littleEndian) = .ok (.int (-120)) :=
  (readInt_addParam_iff .littleEndian ⟨0x1001, []⟩ (-120) (by decide) (by decide)).mpr
    (by decide)

/-- `add_param(200)` is stored as an unsigned byte, which `read_int` returns as
`-56`. -/
theorem readInt_addParam_uint8_band :
    ¬ ∀ (core : Core) (builder : PayloadBuilder) (value : Int),
      -2 ^ 63 ≤ value → value < 2 ^ 63 →
        appendAndRead core builder (.int value) (PayloadReader.readInt core) =
          .ok (.int value) := by
  intro every
  have read : appendAndRead .littleEndian ⟨0x1001, []⟩ (.int 200)
      (PayloadReader.readInt .littleEndian) = .ok (.int (-56)) := by decide
  have equal := read.symm.trans (every .littleEndian ⟨0x1001, []⟩ 200 (by decide) (by decide))
  exact absurd equal (by decide)

/-! ## Unsigned integers -/

/-- Every integer below `2 ^ 64` is appended as a parameter of a known size, which
`read_uint` turns back into it, and no other integer is appended as the same
bytes. -/
theorem readUint_addParam (core : Core) (builder : PayloadBuilder) (value : Int)
    (low : 0 ≤ value) (high : value < 2 ^ 64) :
    ∃ bytes : Bytes, bytes.length ∈ [1, 2, 4, 8] ∧
      builder.addParam core (.int value) =
        .ok { builder with parameters := builder.parameters ++ [bytes] } ∧
      appendAndRead core builder (.int value) (PayloadReader.readUint core) =
        .ok (.int value) ∧
      ∀ (other : Int) (otherBuilder : PayloadBuilder), 0 ≤ other → other < 2 ^ 64 →
        otherBuilder.addParam core (.int other) =
          .ok { otherBuilder with parameters := otherBuilder.parameters ++ [bytes] } →
        other = value := by
  obtain ⟨type, selected⟩ := IntType.exists_select (by omega) high
  refine ⟨encode core.byteOrder type.width value, ?_, ?_, ?_, ?_⟩
  · rw [encode_length]
    exact type.width_mem
  · exact PayloadBuilder.addParam_int core builder selected
  · apply appendAndRead_int core builder selected
    intro reader next
    rw [PayloadReader.readUint_eq, PayloadReader.readParam_of_getElem? next,
      PayloadReader.decodeUint_encode low selected]
    rfl
  · intro other otherBuilder otherLow otherHigh appended
    obtain ⟨otherType, otherSelected⟩ := IntType.exists_select (by omega) otherHigh
    rw [PayloadBuilder.addParam_int core otherBuilder otherSelected] at appended
    have same : encode core.byteOrder otherType.width other =
        encode core.byteOrder type.width value := by
      simpa using appended
    have read : PayloadReader.decodeUint core (encode core.byteOrder otherType.width other) =
        .ok (.int other) :=
      PayloadReader.decodeUint_encode otherLow otherSelected
    rw [same, PayloadReader.decodeUint_encode low selected] at read
    cases read
    rfl

theorem readUint_addParam_int8 :
    ∃ bytes : Bytes, bytes.length ∈ [1, 2, 4, 8] ∧
      PayloadBuilder.addParam .littleEndian ⟨0x1001, []⟩ (.int 100) =
        .ok ⟨0x1001, [] ++ [bytes]⟩ ∧
      appendAndRead .littleEndian ⟨0x1001, []⟩ (.int 100)
          (PayloadReader.readUint .littleEndian) = .ok (.int 100) ∧
      ∀ (other : Int) (otherBuilder : PayloadBuilder), 0 ≤ other → other < 2 ^ 64 →
        otherBuilder.addParam .littleEndian (.int other) =
          .ok { otherBuilder with parameters := otherBuilder.parameters ++ [bytes] } →
        other = 100 :=
  readUint_addParam .littleEndian ⟨0x1001, []⟩ 100 (by decide) (by decide)

end ObscuraProto
