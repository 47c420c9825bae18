import Etymology.Document.Value
import Etymology.Text.Runs

namespace Etymology

inductive PartOfSpeech where
  | none
  | noun
  | verb
  | adjective
deriving DecidableEq, Inhabited

namespace PartOfSpeech

def all : List PartOfSpeech :=
  [.none, .noun, .verb, .adjective]

def name : PartOfSpeech → String
  | .none => "none"
  | .noun => "noun"
  | .verb => "verb"
  | .adjective => "adjective"

def ofName? (name : String) : Option PartOfSpeech :=
  all.find? fun p => p.name == name

/-- Null is the absent part of speech. Any other value is read by its text, in any case and
with blanks around it. -/
def ofValue? (v : Value) : Option PartOfSpeech :=
  match v with
  | .scalar .null => some .none
  | v => v.written?.bind fun s => ofName? (String.ofList ((Text.trim s.toList).flatMap Text.lower))

/-- What is said of a value that names no part of speech, or else why this cannot be said of it. -/
def refusal (v : Value) : String :=
  match v.written? with
  | .some s => "invalid part of speech '" ++ s ++ "'. Valid: " ++ ", ".intercalate (all.map name)
  | .none => "Exceeds the limit (4300 digits) for integer string conversion; " ++
    "use sys.set_int_max_str_digits() to increase the limit"

end PartOfSpeech

end Etymology
