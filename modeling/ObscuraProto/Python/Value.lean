/-!
# Python values at the binding boundary

The values that cross between the bindings and user callbacks, and the
exceptions raised by the wrapper layer.  Only what the modelled functions look
at is kept: the class and text of an exception, the type and contents of a
payload parameter, and the truth value of any other object.
-/

namespace ObscuraProto

abbrev Bytes := List UInt8

/-- An exception of class `Exception`.  `str` is the text `str(e)`; `user` covers
whatever a callback raises on its own. -/
inductive PyExc where
  | typeError (text : String)
  /-- `raise TypeError(text) from cause`. -/
  | typeErrorFrom (text : String) (cause : PyExc)
  | runtimeError (text : String)
  | logicError (text : String)
  | timeoutError (text : String)
  | user (name text : String)
  deriving DecidableEq, Repr

namespace PyExc

/-- `str(e)`. -/
def str : PyExc → String
  | typeError text | typeErrorFrom text _ | runtimeError text
  | logicError text | timeoutError text | user _ text => text

/-- The exception is an instance of the exported `TimeoutError`. -/
def isTimeout : PyExc → Bool
  | timeoutError _ => true
  | _ => false

end PyExc

/-- A message body: the core frames every parameter with its length, so a
payload is an op code and a list of parameter bytes. -/
structure Payload where
  opCode : Nat
  parameters : List Bytes
  deriving DecidableEq, Repr

/-- The code points of a `str` with lone surrogates. -/
structure SurrogateText where
  codePoints : List Nat
  lone : ∃ point ∈ codePoints, 0xD800 ≤ point ∧ point ≤ 0xDFFF
  deriving DecidableEq, Repr

/-- A Python object seen by the wrapper layer.  Floats are kept as the bits of
their IEEE double; `object` is any value of another type.  A `str` that has no UTF-8
encoding is a `surrogates`. -/
inductive PyValue where
  | none
  | bool (value : Bool)
  | int (value : Int)
  | float (bits : BitVec 64)
  | str (value : String)
  | surrogates (text : SurrogateText)
  | bytes (value : Bytes)
  | list (items : List Int)
  | connectionHdl (id : Nat)
  | payload (value : Payload)
  | payloadReader
  | object (id : Nat) (truth : Bool)
  deriving DecidableEq, Repr

namespace PyValue

/-- `bool(value)`. -/
def truth : PyValue → Bool
  | none => false
  | bool value => value
  | int value => value != 0
  | float bits => bits &&& 0x7FFFFFFFFFFFFFFF#64 != 0#64
  | str value => value != ""
  | surrogates _ => true
  | bytes value => value != []
  | list items => items != []
  | connectionHdl _ | payload _ | payloadReader => true
  | object _ truth => truth

/-- `isinstance(value, Payload)`. -/
def isPayload : PyValue → Bool
  | payload _ => true
  | _ => false

end PyValue

/-- A Python float used as a timeout: its exact value and its printed form. -/
structure Seconds where
  value : Rat
  text : String
  deriving DecidableEq, Repr

end ObscuraProto
