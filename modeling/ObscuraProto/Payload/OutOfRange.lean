import ObscuraProto.Payload.RoundTrip

/-!
# Integers no integer overload takes

An integer outside the 64-bit ranges is refused by every integer overload, in
both passes.  The pass with conversions asks the `bool` overload before them, and
it takes any number.
-/

namespace ObscuraProto

open Library.TwosComplement

/-- The integer fits an overload of one of the widths. -/
def IntType.Representable (value : Int) : Prop :=
  -2 ^ 63 ≤ value ∧ value < 2 ^ 64

instance (value : Int) : Decidable (IntType.Representable value) :=
  inferInstanceAs (Decidable (_ ∧ _))

theorem IntType.representable_of_inRange {type : IntType} {value : Int}
    (fits : type.inRange value = true) : Representable value := by
  rw [inRange_iff] at fits
  rw [Representable]
  cases type <;> simp only at fits <;> omega

theorem IntType.select_eq_none {value : Int} (outside : ¬ Representable value) :
    select value = none := by
  rw [select, List.find?_eq_none]
  intro type _ fits
  exact outside (representable_of_inRange fits)

namespace PayloadBuilder

/-- Outside the integer ranges the `bool` overload takes the number's truth
value. -/
theorem resolve_int_of_outside {value : Int} (outside : ¬ IntType.Representable value) :
    resolve (.int value) = some (.bool true) := by
  have nonzero : (PyValue.int value).truth = true := by
    simp only [PyValue.truth, bne_iff_ne]
    rintro rfl
    exact outside ⟨by decide, by decide⟩
  have converting : Overload.declared.findSome? (·.load true (.int value)) =
      some (.bool (PyValue.int value).truth) := rfl
  rw [resolve, findSome?_load_int, IntType.select_eq_none outside, converting, nonzero]
  rfl

/-- `add_param` refuses the integers it cannot represent, and what it appends for
any other is an encoding of that integer. -/
structure Unaltered (core : Core) (builder : PayloadBuilder) (value : Int) : Prop where
  refused : ¬ IntType.Representable value →
    ∃ e, builder.addParam core (.int value) = .error e
  encoded : ∀ appended, builder.addParam core (.int value) = .ok appended →
    ∃ type : IntType, type.inRange value = true ∧
      appended =
        { builder with
          parameters := builder.parameters ++ [encode core.byteOrder type.width value] }

end PayloadBuilder

/-- An integer is refused or kept exactly when it can be represented. -/
theorem addParam_unaltered_iff (core : Core) (builder : PayloadBuilder) (value : Int)
    (stores : ∀ flag, ∃ bytes, core.storeOther (.bool flag) = .ok bytes) :
    builder.Unaltered core value ↔ IntType.Representable value := by
  constructor
  · intro unaltered
    by_contra outside
    obtain ⟨e, refused⟩ := unaltered.refused outside
    obtain ⟨bytes, stored⟩ := stores true
    rw [PayloadBuilder.addParam, PayloadBuilder.resolve_int_of_outside outside] at refused
    simp [Core.store, stored, bind, Except.bind, pure, Except.pure] at refused
  · intro representable
    obtain ⟨type, selected⟩ := IntType.exists_select representable.1 representable.2
    constructor
    · intro outside
      exact absurd representable outside
    · intro appended added
      rw [PayloadBuilder.addParam_int core builder selected] at added
      cases added
      exact ⟨type, IntType.inRange_of_select selected, rfl⟩

theorem addParam_unaltered_uint64 :
    PayloadBuilder.Unaltered .littleEndian ⟨0x1001, []⟩ 18446744073709551615 :=
  (addParam_unaltered_iff .littleEndian ⟨0x1001, []⟩ 18446744073709551615
    fun flag => ⟨[if flag then 1 else 0], rfl⟩).mpr (by decide)

/-- `add_param(2 ** 64)` appends the byte of `True`. -/
theorem addParam_outside_appended :
    ¬ ∀ (core : Core) (builder : PayloadBuilder) (value : Int),
      (∀ flag, ∃ bytes, core.storeOther (.bool flag) = .ok bytes) →
        builder.Unaltered core value := by
  intro every
  have unaltered := every .littleEndian ⟨0x1001, []⟩ (2 ^ 64)
    fun flag => ⟨[if flag then 1 else 0], rfl⟩
  obtain ⟨e, refused⟩ := unaltered.refused (by decide)
  have appended : PayloadBuilder.addParam .littleEndian ⟨0x1001, []⟩ (.int (2 ^ 64)) =
      .ok ⟨0x1001, [[1]]⟩ := by decide
  cases appended.symm.trans refused

end ObscuraProto
