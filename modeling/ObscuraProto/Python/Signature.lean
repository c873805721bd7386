import Mathlib.Data.List.Nodup
import ObscuraProto.Python.Value

/-!
# Handler signatures and keyword calls

What `inspect.signature` shows of a handler, and the rule by which Python binds
a call that passes every argument by keyword.
-/

namespace ObscuraProto

/-- A parameter annotation, as far as the wrappers compare it by identity. -/
inductive Annotation where
  | empty
  | connectionHdl | payload | payloadReader
  | str | int | uint | float | bool | bytes
  | other (name : String)
  deriving DecidableEq, Repr

inductive ParamKind where
  | positionalOnly | positionalOrKeyword | varPositional | keywordOnly | varKeyword
  deriving DecidableEq, Repr

/-- `inspect.Parameter`. -/
structure Param where
  name : String
  kind : ParamKind := .positionalOrKeyword
  annotation : Annotation := .empty
  hasDefault : Bool := false
  deriving DecidableEq, Repr

namespace Param

/-- The parameter can be bound by a keyword argument of its name. -/
def byKeyword (param : Param) : Bool :=
  param.kind == .positionalOrKeyword || param.kind == .keywordOnly

/-- A call that does not bind the parameter is refused. -/
def required (param : Param) : Bool :=
  !param.hasDefault && param.kind != .varPositional && param.kind != .varKeyword

/-- The parameter carries a type hint. -/
def hinted (param : Param) : Bool :=
  param.annotation != .empty

end Param

/-- `inspect.signature(handler)`: Python refuses to define two parameters of one
name. -/
structure Signature where
  params : List Param
  nodup : (params.map Param.name).Nodup

/-- The keyword dictionary of a call, in insertion order. -/
abbrev Kwargs := List (String × PyValue)

namespace Signature

/-- A keyword of this name is taken, by a parameter or by `**kwargs`. -/
def acceptsKeyword (sig : Signature) (name : String) : Bool :=
  sig.params.any fun param =>
    (param.byKeyword && param.name == name) || param.kind == .varKeyword

/-- The call binds the parameter from its keywords. -/
def binds (kwargs : Kwargs) (param : Param) : Bool :=
  param.byKeyword && kwargs.any fun entry => entry.1 == param.name

theorem binds_iff {kwargs : Kwargs} {param : Param} :
    binds kwargs param = true ↔
      param.byKeyword = true ∧ param.name ∈ kwargs.map Prod.fst := by
  simp [binds]

/-- `handler(**kwargs)` up to the entry of the body: the keywords, or the
`TypeError` Python raises for a call that does not fit the signature. -/
def bindKeywords (sig : Signature) (kwargs : Kwargs) : Except PyExc Kwargs :=
  match kwargs.find? fun entry => !sig.acceptsKeyword entry.1 with
  | some (name, _) =>
      .error (.typeError s!"got an unexpected keyword argument '{name}'")
  | none =>
      match sig.params.find? fun param => param.required && !binds kwargs param with
      | some param => .error (.typeError s!"missing a required argument: '{param.name}'")
      | none => .ok kwargs

theorem bindKeywords_eq_ok_iff (sig : Signature) (kwargs : Kwargs) :
    sig.bindKeywords kwargs = .ok kwargs ↔
      (∀ entry ∈ kwargs, sig.acceptsKeyword entry.1 = true) ∧
        ∀ param ∈ sig.params, param.required = true → binds kwargs param = true := by
  rw [bindKeywords]
  split
  · next name value unexpected =>
      have found := List.find?_some unexpected
      have member := List.mem_of_find?_eq_some unexpected
      constructor
      · intro impossible
        cases impossible
      · intro ⟨accepted, _⟩
        simp [accepted _ member] at found
  · next accepted =>
      rw [List.find?_eq_none] at accepted
      split
      · next param missing =>
          have found := List.find?_some missing
          have member := List.mem_of_find?_eq_some missing
          constructor
          · intro impossible
            cases impossible
          · intro ⟨_, bound⟩
            have required : param.required = true := by simp_all
            simp [bound param member required] at found
      · next bound =>
          rw [List.find?_eq_none] at bound
          constructor
          · intro _
            constructor
            · intro entry member
              simpa using accepted entry member
            · intro param member required
              simpa [required] using bound param member
          · intro _
            rfl

/-- Two parameters of one name are the same parameter. -/
theorem eq_of_name_eq (sig : Signature) {left right : Param}
    (leftMem : left ∈ sig.params) (rightMem : right ∈ sig.params)
    (equal : left.name = right.name) : left = right :=
  List.inj_on_of_nodup_map sig.nodup leftMem rightMem equal

end Signature

end ObscuraProto
