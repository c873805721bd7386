import Mathlib.Data.Int.ModEq
import Mathlib.Tactic.Ring

/-!
# Fixed-width integers as byte lists

A word of `width` bytes is stored as the base-256 digits of its residue modulo
`256 ^ width`.  The same bytes are read back in two ways, as an unsigned residue
and as a signed one; this module says for which integers each reading is the
integer that was stored.
-/

namespace ObscuraProto.Library.TwosComplement

/-- Order in which the digits of a word are laid out. -/
inductive ByteOrder where
  | little
  | big
  deriving DecidableEq, Repr

/-- Number of residues of a word of `width` bytes. -/
def modulus (width : Nat) : Nat := 256 ^ width

theorem modulus_pos (width : Nat) : 0 < modulus width :=
  Nat.pow_pos (by decide)

@[simp] theorem modulus_succ (width : Nat) :
    modulus (width + 1) = 256 * modulus width := by
  simp only [modulus, Nat.pow_succ, Nat.mul_comm]

/-- The `width` low base-256 digits of a natural number, least significant
first. -/
def digits : Nat → Nat → List UInt8
  | 0, _ => []
  | width + 1, value => UInt8.ofNat value :: digits width (value / 256)

/-- The natural number with the given base-256 digits, least significant
first. -/
def ofDigits : List UInt8 → Nat
  | [] => 0
  | digit :: rest => digit.toNat + 256 * ofDigits rest

@[simp] theorem digits_length (width value : Nat) :
    (digits width value).length = width := by
  induction width generalizing value with
  | zero => rfl
  | succ width ih => simp [digits, ih]

theorem ofDigits_digits (width value : Nat) :
    ofDigits (digits width value) = value % modulus width := by
  induction width generalizing value with
  | zero => simp [digits, ofDigits, modulus, Nat.mod_one]
  | succ width ih =>
      simp only [digits, ofDigits, ih, modulus_succ, UInt8.toNat_ofNat']
      exact (Nat.mod_mul).symm

namespace ByteOrder

/-- Lay out little-endian digits in the given order; the same map reads them
back. -/
def arrange : ByteOrder → List UInt8 → List UInt8
  | .little, bytes => bytes
  | .big, bytes => bytes.reverse

@[simp] theorem arrange_length (order : ByteOrder) (bytes : List UInt8) :
    (order.arrange bytes).length = bytes.length := by
  cases order <;> simp [arrange]

@[simp] theorem arrange_arrange (order : ByteOrder) (bytes : List UInt8) :
    order.arrange (order.arrange bytes) = bytes := by
  cases order <;> simp [arrange]

end ByteOrder

/-- The two's-complement bytes of an integer in a word of `width` bytes. -/
def encode (order : ByteOrder) (width : Nat) (value : Int) : List UInt8 :=
  order.arrange (digits width (value % modulus width).toNat)

/-- Read a word as an unsigned integer. -/
def decodeUnsigned (order : ByteOrder) (bytes : List UInt8) : Int :=
  ofDigits (order.arrange bytes)

/-- Read a word as a signed integer: residues from the upper half of the range
stand for negative numbers. -/
def decodeSigned (order : ByteOrder) (bytes : List UInt8) : Int :=
  (decodeUnsigned order bytes).bmod (modulus bytes.length)

@[simp] theorem encode_length (order : ByteOrder) (width : Nat) (value : Int) :
    (encode order width value).length = width := by
  simp [encode]

theorem decodeUnsigned_encode (order : ByteOrder) (width : Nat) (value : Int) :
    decodeUnsigned order (encode order width value) = value % modulus width := by
  have positive : (0 : Int) < modulus width := by
    exact_mod_cast modulus_pos width
  have nonneg := Int.emod_nonneg value positive.ne'
  have below := Int.emod_lt_of_pos value positive
  simp only [decodeUnsigned, encode, ByteOrder.arrange_arrange, ofDigits_digits]
  rw [Nat.mod_eq_of_lt (by omega)]
  exact Int.toNat_of_nonneg nonneg

theorem decodeSigned_encode (order : ByteOrder) (width : Nat) (value : Int) :
    decodeSigned order (encode order width value) = value.bmod (modulus width) := by
  rw [decodeSigned, decodeUnsigned_encode, encode_length, Int.emod_bmod]

/-- The unsigned reading is exact on the unsigned range of the word. -/
theorem decodeUnsigned_encode_eq_iff (order : ByteOrder) (width : Nat) (value : Int) :
    decodeUnsigned order (encode order width value) = value ↔
      0 ≤ value ∧ value < modulus width := by
  rw [decodeUnsigned_encode]
  exact Int.emod_eq_iff (by exact_mod_cast (modulus_pos width).ne') |>.trans (by simp)

/-- The signed reading is exact on the signed range of the word. -/
theorem decodeSigned_encode_eq_iff (order : ByteOrder) (width : Nat) (value : Int)
    (positive : 0 < width) :
    decodeSigned order (encode order width value) = value ↔
      -(modulus width : Int) ≤ 2 * value ∧ 2 * value < modulus width := by
  cases width with
  | zero => contradiction
  | succ width =>
      rw [decodeSigned_encode]
      have even : modulus (width + 1) = 2 * (128 * modulus width) := by
        rw [modulus_succ]
        ring
      have halfPos := modulus_pos width
      constructor
      · intro equal
        have low := Int.le_bmod (x := value) (modulus_pos (width + 1))
        have high := Int.bmod_lt (x := value) (modulus_pos (width + 1))
        rw [equal] at low high
        omega
      · intro ⟨low, high⟩
        exact Int.bmod_eq_of_le (by omega) (by omega)

end ObscuraProto.Library.TwosComplement
