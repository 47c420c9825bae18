import Etymology.Decimal.Shortest
import Etymology.Document.Calendar
import Etymology.Text.Quoted

namespace Etymology

/-- A float is kept as its bits, so that equal scalars are the same scalar. -/
inductive Scalar where
  | null
  | bool (b : Bool)
  | int (n : Int)
  | float (bits : UInt64)
  | text (s : String)
  | date (d : Date)
  | moment (m : Moment)
  | bytes (bs : List UInt8)
deriving DecidableEq, Inhabited

/-- A value as a document holds it. The order of the entries of a mapping is significant, since it
decides which of several mistakes is reported. -/
inductive Value where
  | scalar (s : Scalar)
  | list (items : List Value)
  | mapping (entries : List (Scalar × Value))
deriving Inhabited

abbrev Entries := List (Scalar × Value)

namespace Scalar

/-- The representative of all scalars that count as one key of a mapping: truth values and
integral floats are the integers that they equal. -/
def keyForm : Scalar → Scalar
  | .bool b => .int (if b then 1 else 0)
  | .float x => match Decimal.integral? x with
    | some n => .int n
    | none => .float x
  | s => s

/-- A value that is not a number is no key twice, and a moment is the same key by any clock. -/
def sameKey (a b : Scalar) : Bool :=
  match a, b with
  | .moment m, .moment n => m.isSame n
  | .float x, b => (Scalar.float x).keyForm == b.keyForm && !Decimal.isNaN x
  | a, b => a.keyForm == b.keyForm

def isFalsy : Scalar → Bool
  | .null => true
  | .bool b => !b
  | .int n => n == 0
  | .float x => Decimal.isZero x
  | .text s => s.isEmpty
  | .date _ => false
  | .moment _ => false
  | .bytes bs => bs.isEmpty

/-- The decimal digits of an integer. One of more than 4300 digits has no text. -/
def integerText? (n : Int) : Option String :=
  if (toString n.natAbs).length ≤ 4300 then some (toString n) else none

/-- The text of a scalar as part of a larger value: texts are quoted. -/
def quoted? : Scalar → Option String
  | .null => some "None"
  | .bool b => some (if b then "True" else "False")
  | .int n => integerText? n
  | .float x => some (Decimal.floatText x)
  | .text s => some (Text.quoted s)
  | .date d => some d.quoted
  | .moment m => some m.quoted
  | .bytes bs => some (Text.quotedBytes bs)

/-- The text of a scalar that stands alone: a text is its own. -/
def written? : Scalar → Option String
  | .text s => some s
  | .date d => some d.text
  | .moment m => some m.text
  | s => s.quoted?

def typeName : Scalar → String
  | .null => "NoneType"
  | .bool _ => "bool"
  | .int _ => "int"
  | .float _ => "float"
  | .text _ => "str"
  | .date _ => "date"
  | .moment _ => "datetime"
  | .bytes _ => "bytes"

end Scalar

namespace Entries

/-- The value under a key that is a text. -/
def get? (es : Entries) (key : String) : Option Value :=
  (es.find? fun e => e.1 == .text key).map (·.2)

/-- The value under a key, null if there is none. -/
def getD (es : Entries) (key : String) : Value :=
  (es.get? key).getD (.scalar .null)

/-- A key that is present keeps its place and its spelling and takes the new value; a new key
goes to the end. -/
def put (es : Entries) (key : Scalar) (v : Value) : Entries :=
  if es.any fun e => e.1.sameKey key then
    es.map fun e => if e.1.sameKey key then (e.1, v) else e
  else es ++ [(key, v)]

/-- A mapping with each key once: the last value of a repeated key counts. -/
def ofList (es : List (Scalar × Value)) : Entries :=
  es.foldl (fun done e => done.put e.1 e.2) []

end Entries

namespace Value

mutual

def decEq : (v w : Value) → Decidable (v = w)
  | .scalar s, .scalar t => decidable_of_iff (s = t) (by simp)
  | .list vs, .list ws => match decEqItems vs ws with
    | isTrue h => isTrue (by rw [h])
    | isFalse h => isFalse (by simpa using h)
  | .mapping es, .mapping fs => match decEqEntries es fs with
    | isTrue h => isTrue (by rw [h])
    | isFalse h => isFalse (by simpa using h)
  | .scalar _, .list _ => isFalse nofun
  | .scalar _, .mapping _ => isFalse nofun
  | .list _, .scalar _ => isFalse nofun
  | .list _, .mapping _ => isFalse nofun
  | .mapping _, .scalar _ => isFalse nofun
  | .mapping _, .list _ => isFalse nofun

def decEqItems : (vs ws : List Value) → Decidable (vs = ws)
  | [], [] => isTrue rfl
  | [], _ :: _ => isFalse nofun
  | _ :: _, [] => isFalse nofun
  | v :: vs, w :: ws => match decEq v w, decEqItems vs ws with
    | isTrue h, isTrue hs => isTrue (by rw [h, hs])
    | isFalse h, _ => isFalse (by simp [h])
    | _, isFalse hs => isFalse (by simp [hs])

def decEqEntries : (es fs : List (Scalar × Value)) → Decidable (es = fs)
  | [], [] => isTrue rfl
  | [], _ :: _ => isFalse nofun
  | _ :: _, [] => isFalse nofun
  | (k, v) :: es, (l, w) :: fs => match decEq v w, decEqEntries es fs with
    | isTrue h, isTrue hs => decidable_of_iff (k = l) (by simp [h, hs])
    | isFalse h, _ => isFalse (by simp [h])
    | _, isFalse hs => isFalse (by simp [hs])

end

instance : DecidableEq Value := decEq

def null : Value := .scalar .null

def text (s : String) : Value := .scalar (.text s)

def int (n : Int) : Value := .scalar (.int n)

/-- Null, false, zero, and whatever is empty. Such a value counts as absent in many places. -/
def isFalsy : Value → Bool
  | .scalar s => s.isFalsy
  | .list items => items.isEmpty
  | .mapping entries => entries.isEmpty

def isTruthy (v : Value) : Bool :=
  !v.isFalsy

def text? : Value → Option String
  | .scalar (.text s) => some s
  | _ => none

def typeName : Value → String
  | .scalar s => s.typeName
  | .list _ => "list"
  | .mapping _ => "dict"

mutual

/-- The text of a value as part of a larger one. There is none if it has an integer in it that has
no text. -/
def quoted? : Value → Option String
  | .scalar s => s.quoted?
  | .list items => (quotedItems? items).map fun ts => "[" ++ ", ".intercalate ts ++ "]"
  | .mapping entries => (quotedEntries? entries).map fun ts => "\x7b" ++ ", ".intercalate ts ++ "\x7d"

def quotedItems? : List Value → Option (List String)
  | [] => some []
  | v :: rest => match v.quoted?, quotedItems? rest with
    | some t, some ts => some (t :: ts)
    | _, _ => none

def quotedEntries? : List (Scalar × Value) → Option (List String)
  | [] => some []
  | (k, v) :: rest => match k.quoted?, v.quoted?, quotedEntries? rest with
    | some t, some u, some ts => some ((t ++ ": " ++ u) :: ts)
    | _, _, _ => none

end

/-- The text of a value that stands alone. -/
def written? : Value → Option String
  | .scalar s => s.written?
  | v => v.quoted?

/-- The texts of a list that holds nothing but texts. -/
def texts? : List Value → Option (List String)
  | [] => some []
  | v :: rest => match v.text?, texts? rest with
    | some s, some more => some (s :: more)
    | _, _ => none

theorem text?_eq_some {v : Value} {s : String} : v.text? = some s ↔ v = .text s := by
  constructor
  · intro text
    unfold text? at text
    split at text
    · obtain rfl := Option.some.inj text
      rfl
    · cases text
  · rintro rfl
    rfl

theorem texts?_map_text (ls : List String) : texts? (ls.map Value.text) = some ls := by
  induction ls with
  | nil => rfl
  | cons l ls ih => simp only [List.map_cons, texts?, ih, text, text?]

theorem texts?_eq_some {items : List Value} {ls : List String} :
    texts? items = some ls ↔ items = ls.map Value.text := by
  constructor
  · intro texts
    induction items generalizing ls with
    | nil =>
      cases texts
      rfl
    | cons v items ih =>
      rw [texts?] at texts
      split at texts
      · next s more here rest =>
        cases texts
        rw [List.map_cons, ← ih rest, text?_eq_some.mp here]
      · cases texts
  · rintro rfl
    exact texts?_map_text ls

end Value

end Etymology
