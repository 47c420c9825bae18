import Etymology.Document.Value
import Etymology.Text.Combining
import Etymology.Text.Composed

namespace Etymology

structure Word where
  letters : List String := []
deriving DecidableEq, Inhabited

/-- Which occurrences an edit acts on. -/
inductive Place where
  | first
  | last
  | all
deriving DecidableEq, Inhabited

/-- The marks seen so far from the right, and the letters to the right of them. -/
def groupLetter (c : Char) : List Char × List (List Char) → List Char × List (List Char)
  | (marks, letters) => if Text.isMark c then (c :: marks, letters) else ([], (c :: marks) :: letters)

/-- Every mark goes with the letter before it. Marks at the start have no such letter and make
one of their own. -/
def letterGroups (cs : List Char) : List (List Char) :=
  match cs.foldr groupLetter ([], []) with
  | ([], letters) => letters
  | (marks, letters) => marks :: letters

def splitLetters (s : String) : List String :=
  (letterGroups (Text.composed s.toList)).map String.ofList

namespace Word

def empty : Word := ⟨[]⟩

def ofText (s : String) : Word :=
  ⟨splitLetters s⟩

/-- Letters that are given one by one stay as they are; empty ones are no letters. -/
def ofLetters (letters : List String) : Word :=
  ⟨letters.filter fun l => !l.isEmpty⟩

def text (w : Word) : String :=
  String.join w.letters

def length (w : Word) : Nat :=
  w.letters.length

def isEmpty (w : Word) : Bool :=
  w.letters.isEmpty

def append (w v : Word) : Word :=
  ⟨w.letters ++ v.letters⟩

instance : Append Word := ⟨append⟩

end Word

end Etymology
