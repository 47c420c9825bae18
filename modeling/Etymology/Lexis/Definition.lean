import Etymology.Fault
import Etymology.Lexis.Basic

namespace Etymology

/-- Whatever counts as absent is the empty text. -/
def Value.textOrEmpty (v : Value) : Except Fault String :=
  if v.isFalsy then .ok "" else Fault.orUnsuitable v.written?

/-- The value under the first of two keys, if there is one, and otherwise under the second. -/
def Entries.getEither (es : Entries) (key other : String) : Value :=
  match es.get? key with
  | some v => v
  | none => es.getD other

namespace Lexis

/-- A word may be given as text or letter by letter, or be absent. -/
def checkWord (id : String) (v : Value) : Except Fault Unit :=
  match v with
  | .scalar .null => return ()
  | .scalar (.text _) => return ()
  | .list _ => return ()
  | _ => .error (.document (.entry id .badWord))

def wordOf (v : Value) : Except Fault (Option Word) :=
  match v with
  | .scalar (.text s) => return some (.ofText s)
  | .list items => return some (.ofLetters (← Fault.orUnsuitable (items.mapM Value.written?)))
  | _ => return none

/-- A list of texts. A single text stands for itself alone. -/
def textsOf (id : String) (entries : Entries) (key : String) : Except Fault (List String) :=
  match entries.getD key with
  | .scalar (.text s) => return if s.isEmpty then [] else [s]
  | .list items => Fault.orUnsuitable (items.mapM Value.written?)
  | v => if v.isFalsy then return [] else .error (.document (.entry id (.notList key)))

/-- The names of transforms on a link. Of a mapping the keys count, and of bytes their numbers;
nothing else that is not a list or text has names in it. -/
def transformNames (v : Value) : Option (List String) :=
  match v with
  | .scalar (.text s) => some (if s.isEmpty then [] else [s])
  | .scalar (.bytes bs) => some (bs.map fun b => toString b.toNat)
  | .list items => items.mapM Value.written?
  | .mapping entries => entries.mapM fun e => e.1.written?
  | v => if v.isFalsy then some [] else none

def orderOf (v : Value) : Except EntryFault Int :=
  match v with
  | .scalar .null => return 0
  | .scalar (.int n) => return n
  | _ => .error .badOrder

/-- The link that an entry of the etymology describes; links are numbered from 1. -/
def etymonOf (id : String) (number : Nat) (v : Value) : Except Fault Etymon := do
  let refuse := fun (cause : EntryFault) => Fault.document (.entry id cause)
  match v with
  | .mapping edge =>
    let ancestor := Entries.getD edge "etymon"
    if ancestor.isFalsy then .error (refuse (.noAncestor number))
    let order ← (orderOf (Entries.getD edge "agglutination_order")).mapError refuse
    return ⟨← Fault.orUnsuitable ancestor.written?,
      ← Fault.orUnsuitable (transformNames (Entries.getD edge "transforms")), order⟩
  | _ => .error (refuse (.noAncestor number))

def etymonsFrom (id : String) : Nat → List Value → Except Fault (List Etymon)
  | _, [] => .ok []
  | number, v :: vs => do
    let e ← etymonOf id number v
    return e :: (← etymonsFrom id (number + 1) vs)

/-- The links may stand by themselves or in a mapping under `etymons`. -/
def etymonsOf (id : String) (etymology : Value) : Except Fault (List Etymon) :=
  let refused := Except.error (Fault.document (.entry id (.notList "etymology.etymons")))
  match etymology with
  | .scalar .null => .ok []
  | .list vs => etymonsFrom id 1 vs
  | .mapping entries => match Entries.getD entries "etymons" with
    | .list vs => etymonsFrom id 1 vs
    | v => if v.isFalsy then .ok [] else refused
  | _ => refused

def posOf (id : String) (v : Value) : Except Fault PartOfSpeech :=
  match PartOfSpeech.ofValue? v with
  | some pos => return pos
  | none => .error (.document (.entry id (.badPartOfSpeech v)))

def archaicOf (id : String) (entries : Entries) : Except Fault Bool :=
  match entries.get? "archaic" with
  | none => return false
  | some (.scalar (.bool b)) => return b
  | some _ => .error (.document (.entry id .badArchaic))

/-- What an entry says of a lexis itself. A word without letters is no word. -/
def fieldsOf (id : String) (entries : Entries) : Except Fault Lexis := do
  checkWord id (entries.getD "word")
  let pos ← posOf id (entries.getEither "part_of_speech" "pos")
  let archaic ← archaicOf id entries
  let word ← wordOf (entries.getD "word")
  let language ← (entries.getD "language").textOrEmpty
  let kind ← (entries.getEither "word_type" "type").textOrEmpty
  let definition ← (entries.getD "definition").textOrEmpty
  let tags ← textsOf id entries "tags"
  let history ← textsOf id entries "historical_metadata"
  return {
    id := id
    word := word.filter fun w => !w.isEmpty
    language := language
    kind := kind
    definition := definition
    pos := pos
    archaic := archaic
    tags := tags
    generate := entries.getD "generate"
    history := history }

/-- The lexis that an entry describes, with its links. -/
def ofEntries (id : String) (entries : Entries) : Except Fault Lexis := do
  let x ← fieldsOf id entries
  return { x with etymons := ← etymonsOf id (entries.getD "etymology") }

end Lexis

end Etymology
