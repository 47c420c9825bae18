import Etymology.GlobalRule
import Etymology.Graph.Basic
import Etymology.Phonology.Generator

namespace Etymology

structure Lexicon where
  graph : Graph
  transforms : Table Transform := {}
  rules : List GlobalRule := []
  scripts : Option ScriptRunner := none
  generator : Option Generator := none
deriving Inhabited

/-- The state of one pass over a lexicon: the words found, in the order in which they were found,
the lexes whose etymons are being resolved, and the choices made. -/
structure Pass where
  words : Table Word := {}
  inProgress : List String := []
  picks : Picks := {}
deriving Inhabited

namespace Pass

def keep (p : Pass) (id : String) (w : Word) : Pass :=
  { p with words := p.words.put id w }

def start (p : Pass) (id : String) : Pass :=
  { p with inProgress := p.inProgress ++ [id] }

/-- Keeps the word of a lexis that was in progress. -/
def finish (p : Pass) (id : String) (w : Word) : Pass :=
  { p with words := p.words.put id w, inProgress := p.inProgress.filter (· != id) }

/-- Forgets that some lexes were in progress, so that they do not look like a cycle later. -/
def abandon (p : Pass) (ids : List String) : Pass :=
  { p with inProgress := p.inProgress.filter fun id => !ids.contains id }

/-- The chain of lexes in progress from one of them on, closed by it. -/
def chainFrom (p : Pass) (id : String) : List String :=
  p.inProgress.dropWhile (· != id) ++ [id]

end Pass

namespace Lexicon

/-- The transforms that a link names, on behalf of the lexis that has the link. -/
def transformsOf (l : Lexicon) (referrer : String) : List String → Except Fault (List Transform)
  | [] => .ok []
  | name :: names => match l.transforms.get? name with
    | none => .error (.unknownReference name .transform (some referrer))
    | some t => match l.transformsOf referrer names with
      | .ok ts => .ok (t :: ts)
      | .error fault => .error fault

/-- A failing script is reported for the lexis that is being derived. -/
def blameScript (id : String) : Fault → Fault
  | .scriptFailed _ file cause => .scriptFailed id file cause
  | fault => fault

/-- What one etymon contributes to the word of a lexis: its own word, carried by the source, as the
transforms of the link leave it. -/
def contribution (l : Lexicon) (id : String) (link : Etymon) (source : Lexis) (w : Word) :
    Except Fault Word :=
  match l.transformsOf id link.transforms with
  | .ok ts => (runSteps source l.scripts (Transform.chain ts) w).mapError (blameScript id)
  | .error fault => .error fault

/-- Contributions joined, and the global rules applied to the result. The sources are the etymons
with their words, in the order of the contributions. -/
def joined (l : Lexicon) (x : Lexis) (sources : List Lexis) (words : List Word) :
    Except Fault Word :=
  let w : Word := ⟨words.flatMap Word.letters⟩
  GlobalRule.applyAll (x.withWord w) sources l.scripts l.rules w

/-- The word of a lexis without etymons and without a word of its own. -/
def generated (l : Lexicon) (x : Lexis) (picks : Picks) : Except Fault Word × Picks :=
  if x.generate.isFalsy then (.error (.underspecified x.id), picks)
  else match l.generator with
    | none => (.error (.unknownKey x.generate), picks)
    | some g => g.createWordFor x.generate picks

end Lexicon

end Etymology
