import Etymology.Graph.Basic
import Etymology.Predicate.Basic
import Etymology.Text.Runs
import Etymology.Text.Template

namespace Etymology

/-- How a daughter language is made. -/
structure DaughterPlan where
  source : String
  language : String
  transforms : List String := []
  condition : Option Predicate := none
  extraTags : List String := []
  idTemplate : String := "\x7bid\x7d-\x7blanguage\x7d"
deriving Inhabited

namespace Graph

/-- The candidate with a number behind it. -/
def numbered (candidate : String) (n : Nat) : String :=
  candidate ++ "-" ++ toString n

/-- The candidate if no lexis has it, and otherwise the candidate with the least number from 2 on
that no lexis has. One of the first `size + 1` numbers is free. -/
def freshId (g : Graph) (candidate : String) : String :=
  if g.contains candidate then
    match (List.range g.size).find? fun k => !g.contains (numbered candidate (k + 2)) with
    | some k => numbered candidate (k + 2)
    | none => numbered candidate (g.size + 2)
  else candidate

end Graph

namespace DaughterPlan

def selects (plan : DaughterPlan) (x : Lexis) : Bool :=
  x.language == plan.source && Predicate.holdsOpt plan.condition x

def candidate? (plan : DaughterPlan) (x : Lexis) : Option String :=
  Text.fillTemplate? plan.idTemplate [("id", x.id), ("language", Text.slug plan.language)]

/-- The daughter of a lexis takes over all but its word, its key and its etymons. -/
def daughterOf (plan : DaughterPlan) (x : Lexis) (id : String) : Lexis where
  id := id
  language := plan.language
  kind := x.kind
  definition := x.definition
  pos := x.pos
  archaic := x.archaic
  tags := x.tags ++ plan.extraTags.filter fun t => !x.tags.contains t
  history := x.history
  etymons := [⟨x.id, plan.transforms, 0⟩]

/-- Adds daughters of some lexes to a graph and gives their ids. A template that cannot be filled
is noticed only where there is a lexis to name. -/
def addDaughters (plan : DaughterPlan) : List Lexis → Graph → Except Fault (Graph × List String)
  | [], g => .ok (g, [])
  | x :: xs, g => match plan.candidate? x with
    | none => .error .unsuitable
    | some candidate =>
      let id := g.freshId candidate
      match g.add (plan.daughterOf x id) with
      | .error fault => .error fault
      | .ok g => match plan.addDaughters xs g with
        | .ok (g, ids) => .ok (g, id :: ids)
        | .error fault => .error fault

end DaughterPlan

/-- The graph with the daughter language, and the ids of the new lexes. -/
def Graph.withDaughter (g : Graph) (plan : DaughterPlan) : Except Fault (Graph × List String) :=
  plan.addDaughters (g.nodes.filter plan.selects) g

end Etymology
