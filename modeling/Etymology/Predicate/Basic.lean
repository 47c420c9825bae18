import Etymology.Lexis.Basic
import Etymology.Predicate.Field

namespace Etymology

/-- What a field is compared with. Equality with a list asks a set of values to include it. -/
inductive Comparator where
  | equals (s : String)
  | equalsAll (ss : List String)
  | oneof (ss : List String)
deriving DecidableEq, Inhabited

inductive Predicate where
  | field (f : Field) (c : Comparator)
  | not (p : Predicate)
  | all (ps : List Predicate)
deriving Inhabited

/-- A field holds one text, or none, or a set of texts. -/
inductive FieldValue where
  | one (s : Option String)
  | set (ss : List String)
deriving DecidableEq, Inhabited

def Lexis.fieldValue (x : Lexis) : Field → FieldValue
  | .id => .one (some x.id)
  | .word => .one (x.word.map Word.text)
  | .language => .one (some x.language)
  | .pos => .one (some x.pos.name)
  | .kind => .one (some x.kind)
  | .archaic => .one (some (if x.archaic then "true" else "false"))
  | .tags => .set x.tags
  | .history => .set x.history
  | .generate => .one x.generate.text?

/-- An absent text satisfies no comparison, and a single text never equals a list. -/
def Comparator.holds (c : Comparator) : FieldValue → Bool
  | .set present => match c with
    | .equals s => present.contains s
    | .equalsAll ss => ss.all present.contains
    | .oneof ss => ss.any present.contains
  | .one none => false
  | .one (some s) => match c with
    | .equals t => s == t
    | .equalsAll _ => false
    | .oneof ss => ss.contains s

namespace Predicate

mutual

def decEq : (p q : Predicate) → Decidable (p = q)
  | .field f c, .field g d => decidable_of_iff (f = g ∧ c = d) (by simp)
  | .not p, .not q => match decEq p q with
    | isTrue h => isTrue (by rw [h])
    | isFalse h => isFalse (by simpa using h)
  | .all ps, .all qs => match decEqList ps qs with
    | isTrue h => isTrue (by rw [h])
    | isFalse h => isFalse (by simpa using h)
  | .field .., .not _ => isFalse nofun
  | .field .., .all _ => isFalse nofun
  | .not _, .field .. => isFalse nofun
  | .not _, .all _ => isFalse nofun
  | .all _, .field .. => isFalse nofun
  | .all _, .not _ => isFalse nofun

def decEqList : (ps qs : List Predicate) → Decidable (ps = qs)
  | [], [] => isTrue rfl
  | [], _ :: _ => isFalse nofun
  | _ :: _, [] => isFalse nofun
  | p :: ps, q :: qs => match decEq p q, decEqList ps qs with
    | isTrue h, isTrue hs => isTrue (by rw [h, hs])
    | isFalse h, _ => isFalse (by simp [h])
    | _, isFalse hs => isFalse (by simp [hs])

end

instance : DecidableEq Predicate := decEq

mutual

def holds : Predicate → Lexis → Bool
  | .field f c, x => c.holds (x.fieldValue f)
  | .not p, x => !p.holds x
  | .all ps, x => allHold ps x

def allHold : List Predicate → Lexis → Bool
  | [], _ => true
  | p :: ps, x => p.holds x && allHold ps x

end

/-- A condition that is absent holds of every lexis. -/
def holdsOpt (p : Option Predicate) (x : Lexis) : Bool :=
  match p with
  | none => true
  | some p => p.holds x

end Predicate

end Etymology
