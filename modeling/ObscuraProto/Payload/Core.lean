import ObscuraProto.Library.TwosComplement
import ObscuraProto.Python.Value

/-!
# The compiled core behind the payload bindings

The core library is not part of the repository.  Its integers are the
two's-complement bytes of their width, in a byte order the bindings never look
at; every other conversion between a typed parameter and its bytes is a field of
`Core`, so no result depends on how it is done.
-/

namespace ObscuraProto

open Library.TwosComplement

/-- The integer types for which `add_param` and `read_param` are bound. -/
inductive IntType where
  | int8 | uint8 | int16 | uint16 | int32 | uint32 | int64 | uint64
  deriving DecidableEq, Repr

namespace IntType

/-- `sizeof(T)`. -/
def width : IntType → Nat
  | int8 | uint8 => 1
  | int16 | uint16 => 2
  | int32 | uint32 => 4
  | int64 | uint64 => 8

def signed : IntType → Bool
  | int8 | int16 | int32 | int64 => true
  | uint8 | uint16 | uint32 | uint64 => false

/-- The value is in the C++ range of the type. -/
def inRange (type : IntType) (value : Int) : Bool :=
  if type.signed then
    decide (-(modulus type.width : Int) ≤ 2 * value ∧ 2 * value < modulus type.width)
  else
    decide (0 ≤ value ∧ value < modulus type.width)

end IntType

/-- An argument of one of the C++ `add_param` overloads. -/
inductive CppArg where
  | byteVector (value : Bytes)
  | string (value : Bytes)
  | cString (value : Option Bytes)
  | bool (value : Bool)
  | int (type : IntType) (value : Int)
  | float (bits : BitVec 64)
  | double (bits : BitVec 64)
  deriving DecidableEq, Repr

/-- What the bindings use of the compiled core.  `storeOther` gives the
parameter bytes of a non-integer argument, `endOfPayload` is raised when a
reader is past the last parameter, and the `read` fields are `read_param<T>` on
the bytes of one parameter. -/
structure Core where
  byteOrder : ByteOrder
  storeOther : CppArg → Except PyExc Bytes
  endOfPayload : PyExc
  readString : Bytes → Except PyExc Bytes
  readBytes : Bytes → Except PyExc Bytes
  readBool : Bytes → Except PyExc Bool
  readFloat : Bytes → Except PyExc (BitVec 64)
  readDouble : Bytes → Except PyExc (BitVec 64)

namespace Core

/-- `PayloadBuilder::add_param(T)` seen as the bytes of the new parameter. -/
def store (core : Core) : CppArg → Except PyExc Bytes
  | .int type value => .ok (encode core.byteOrder type.width value)
  | arg => core.storeOther arg

/-- `PayloadReader::read_param<T>` for an integer type, on the bytes of a
parameter of that width. -/
def readInt (core : Core) (type : IntType) (bytes : Bytes) : Int :=
  if type.signed then decodeSigned core.byteOrder bytes
  else decodeUnsigned core.byteOrder bytes

/-- A little-endian core with one-byte booleans and unpadded strings.  It keeps
every float as a double; no result below reads one. -/
def littleEndian : Core where
  byteOrder := .little
  storeOther
    | .byteVector bytes | .string bytes | .cString (some bytes) => .ok bytes
    | .cString none => .error (.user "LogicError" "null string")
    | .bool value => .ok [if value then 1 else 0]
    | .int type value => .ok (encode .little type.width value)
    | .float bits | .double bits => .ok (digits 8 bits.toNat)
  endOfPayload := .user "OutOfRange" "no more parameters"
  readString bytes := .ok bytes
  readBytes bytes := .ok bytes
  readBool
    | [byte] => .ok (byte != 0)
    | _ => .error (.user "OutOfRange" "invalid parameter size")
  readFloat bytes := .ok (BitVec.ofNat 64 (ofDigits bytes))
  readDouble bytes := .ok (BitVec.ofNat 64 (ofDigits bytes))

/-- Reading with the stored type gives back exactly the values of its range. -/
theorem readInt_store_eq_iff (core : Core) (type : IntType) (value : Int) :
    core.readInt type (encode core.byteOrder type.width value) = value ↔
      type.inRange value = true := by
  rw [readInt, IntType.inRange]
  split
  · rw [decodeSigned_encode_eq_iff _ _ _ (by cases type <;> decide), decide_eq_true_iff]
  · rw [decodeUnsigned_encode_eq_iff, decide_eq_true_iff]

end Core

end ObscuraProto
