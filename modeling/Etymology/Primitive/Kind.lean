namespace Etymology

inductive PrimitiveKind where
  | letterReplace
  | letterRemove
  | double
  | dedouble
  | append
  | prepend
  | matchReplace
  | letterArray
  | loanword
  | script
deriving DecidableEq, Inhabited

namespace PrimitiveKind

def name : PrimitiveKind → String
  | .letterReplace => "letter_replace"
  | .letterRemove => "letter_remove"
  | .double => "double"
  | .dedouble => "dedouble"
  | .append => "postfix"
  | .prepend => "prefix"
  | .matchReplace => "match_replace"
  | .letterArray => "letter_array"
  | .loanword => "loanword"
  | .script => "script_transform"

/-- All kinds, in the order of their names. -/
def all : List PrimitiveKind :=
  [.dedouble, .double, .letterArray, .letterRemove, .letterReplace, .loanword, .matchReplace,
   .append, .prepend, .script]

def ofName? (name : String) : Option PrimitiveKind :=
  all.find? fun k => k.name == name

theorem mem_all (k : PrimitiveKind) : k ∈ all := by
  cases k <;> decide

theorem ofName?_name (k : PrimitiveKind) : ofName? k.name = some k := by
  cases k <;> decide

theorem ofName?_eq_some {name : String} {k : PrimitiveKind} :
    ofName? name = some k ↔ name = k.name := by
  constructor
  · intro found
    have same := List.find?_some found
    exact (beq_iff_eq.mp same).symm
  · rintro rfl
    exact ofName?_name k

theorem name_injective {k l : PrimitiveKind} (same : k.name = l.name) : k = l := by
  have known := ofName?_name k
  rwa [same, ofName?_name, Option.some.injEq, eq_comm] at known

end PrimitiveKind

end Etymology
