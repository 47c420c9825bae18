import Etymology.Lexicon.Resolve

namespace Etymology

structure Record where
  id : String
  language : String
  word : String
  definition : String
  pos : PartOfSpeech
  archaic : Bool
  tags : List String
  kind : String
deriving DecidableEq, Inhabited

def Record.ofLexis (x : Lexis) (w : Word) : Record :=
  ⟨x.id, x.language, w.text, x.definition, x.pos, x.archaic, x.tags, x.kind⟩

/-- Rows are sorted by word, and where words are the same by id. -/
def Record.notAfter (a b : Record) : Bool :=
  decide (a.word < b.word) || (a.word == b.word && decide (a.id ≤ b.id))

namespace Lexicon

/-- The rows of some lexes, in their order. A condition sees a lexis with its word. -/
def recordsOf (l : Lexicon) (condition : Option Predicate) :
    List Lexis → Pass → Except Fault (List Record) × Pass
  | [], pass => (.ok [], pass)
  | x :: xs, pass => match l.resolve x.id pass with
    | (.error fault, pass) => (.error fault, pass)
    | (.ok w, pass) => match l.recordsOf condition xs pass with
      | (.error fault, pass) => (.error fault, pass)
      | (.ok rows, pass) =>
        if Predicate.holdsOpt condition (x.withWord w) then (.ok (Record.ofLexis x w :: rows), pass)
        else (.ok rows, pass)

def records (l : Lexicon) (s : Selection) (condition : Option Predicate) (pass : Pass) :
    Except Fault (List Record) × Pass :=
  match l.recordsOf condition (l.graph.select s) pass with
  | (.ok rows, pass) => (.ok (rows.mergeSort Record.notAfter), pass)
  | (.error fault, pass) => (.error fault, pass)

/-- Every lexis gets its word first, so that a lexis that fails is reported even where the
selection leaves it out. -/
def render (l : Lexicon) (s : Selection) (condition : Option Predicate) (pass : Pass) :
    Except Fault (List Record) × Pass :=
  match l.resolveAll pass with
  | (.ok _, pass) => l.records s condition pass
  | (.error fault, pass) => (.error fault, pass)

end Lexicon

end Etymology
