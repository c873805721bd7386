import ObscuraProto.Payload.Core

/-!
# `PayloadBuilder.add_param`

The bindings register fourteen C++ overloads under one Python name.  A call asks
them in declaration order, first without conversions and then with them, and
takes the first whose caster loads the argument.
-/

namespace ObscuraProto

open Library.TwosComplement

/-- One registered overload of `add_param`. -/
inductive Overload where
  | byteVector | string | cString | bool
  | int (type : IntType)
  | float | double
  deriving DecidableEq, Repr

namespace Overload

/-- The overloads in declaration order. -/
def declared : List Overload :=
  [byteVector, string, cString, bool, int .int8, int .uint8, int .int16,
    int .uint16, int .int32, int .uint32, int .int64, int .uint64, float, double]

/-- The caster of the overload's parameter type applied to a Python object.
Strings convert to UTF-8 where they can; `bytes` is refused by the sequence
caster and taken by the string casters; an integer caster takes exactly the
values of its range. -/
def load (convert : Bool) : Overload → PyValue → Option CppArg
  | byteVector, .list items =>
      if items.all (fun item => IntType.uint8.inRange item) then
        some (.byteVector (items.map fun item => UInt8.ofNat item.toNat))
      else none
  | string, .str value => some (.string value.toUTF8.data.toList)
  | string, .bytes value => some (.string value)
  | cString, .str value => some (.cString (some value.toUTF8.data.toList))
  | cString, .bytes value => some (.cString (some value))
  -- `None` loads as a null pointer, but only in the converting pass.
  | cString, .none => if convert then some (.cString none) else none
  | bool, .bool value => some (.bool value)
  -- The converting pass takes the truth value of every number.
  | bool, .int value => if convert then some (.bool (PyValue.int value).truth) else none
  | bool, .float bits => if convert then some (.bool (PyValue.float bits).truth) else none
  | bool, .none => if convert then some (.bool false) else none
  | int type, .int value => if type.inRange value then some (.int type value) else none
  | int type, .bool value =>
      if type.inRange value.toInt then some (.int type value.toInt) else none
  -- No number other than a float gets this far: `bool` is declared earlier.
  | float, .float bits => some (.float bits)
  | double, .float bits => some (.double bits)
  | _, _ => none

end Overload

structure PayloadBuilder where
  opCode : Nat
  parameters : List Bytes
  deriving DecidableEq, Repr

namespace PayloadBuilder

/-- Overload resolution: a pass without conversions, then one with them. -/
def resolve (value : PyValue) : Option CppArg :=
  (Overload.declared.findSome? (·.load false value)).or
    (Overload.declared.findSome? (·.load true value))

def addParam (core : Core) (builder : PayloadBuilder) (value : PyValue) :
    Except PyExc PayloadBuilder :=
  match resolve value with
  | none => .error (.typeError "add_param(): incompatible function arguments.")
  | some arg => do
      let bytes ← core.store arg
      return { builder with parameters := builder.parameters ++ [bytes] }

def build (builder : PayloadBuilder) : Payload where
  opCode := builder.opCode
  parameters := builder.parameters

end PayloadBuilder

/-! ## The overload that takes an integer -/

/-- Bounds of every integer type, in the form `omega` reads. -/
theorem IntType.inRange_iff (type : IntType) (value : Int) :
    type.inRange value = true ↔
      match type with
      | int8 => -128 ≤ value ∧ value < 128
      | uint8 => 0 ≤ value ∧ value < 256
      | int16 => -32768 ≤ value ∧ value < 32768
      | uint16 => 0 ≤ value ∧ value < 65536
      | int32 => -2147483648 ≤ value ∧ value < 2147483648
      | uint32 => 0 ≤ value ∧ value < 4294967296
      | int64 => -9223372036854775808 ≤ value ∧ value < 9223372036854775808
      | uint64 => 0 ≤ value ∧ value < 18446744073709551616 := by
  rw [inRange]
  cases type <;> simp only [signed, Bool.false_eq_true, if_true, if_false] <;>
    rw [decide_eq_true_iff] <;> simp only [width, modulus] <;> omega

/-- The integer types in the order of their overloads. -/
def IntType.declared : List IntType :=
  [int8, uint8, int16, uint16, int32, uint32, int64, uint64]

/-- The type whose overload takes the integer in the pass without conversions:
the first one, narrowest and signed first, that contains it. -/
def IntType.select (value : Int) : Option IntType :=
  declared.find? (·.inRange value)

namespace PayloadBuilder

private theorem findSome?_ite {α β : Type} (accept : α → Bool) (image : α → β)
    (items : List α) :
    (items.findSome? fun item => if accept item then some (image item) else none) =
      (items.find? accept).map image := by
  induction items with
  | nil => rfl
  | cons item items ih =>
      cases accepted : accept item <;> simp [accepted, ih]

/-- Without conversions only an integer overload takes a Python `int`. -/
theorem findSome?_load_int (value : Int) :
    Overload.declared.findSome? (·.load false (.int value)) =
      (IntType.select value).map fun type => .int type value := by
  have split : Overload.declared =
      [.byteVector, .string, .cString, .bool] ++
        (IntType.declared.map .int ++ [.float, .double]) := rfl
  have before : [Overload.byteVector, .string, .cString, .bool].findSome?
      (·.load false (.int value)) = none := rfl
  have after : [Overload.float, .double].findSome? (·.load false (.int value)) = none := rfl
  rw [split, List.findSome?_append, List.findSome?_append, before, after, Option.none_or,
    Option.or_none, List.findSome?_map]
  exact findSome?_ite (·.inRange value) (CppArg.int · value) IntType.declared

theorem resolve_int_of_select {value : Int} {type : IntType}
    (selected : IntType.select value = some type) :
    resolve (.int value) = some (.int type value) := by
  rw [resolve, findSome?_load_int, selected]
  rfl

/-- Appending an integer stores it in the selected type. -/
theorem addParam_int (core : Core) (builder : PayloadBuilder) {value : Int}
    {type : IntType} (selected : IntType.select value = some type) :
    builder.addParam core (.int value) =
      .ok { builder with
        parameters := builder.parameters ++ [encode core.byteOrder type.width value] } := by
  rw [addParam, resolve_int_of_select selected]
  rfl

end PayloadBuilder

end ObscuraProto
