import Etymology.Daughter
import Etymology.Finding
import Etymology.Lexicon.Records
import Etymology.Phonology.Generator

namespace Etymology

structure Project where
  graph : Graph
  transforms : Table Transform := {}
  rules : List GlobalRule := []
  phonology : Option Phonology := none
  scripts : Option ScriptRunner := none
deriving Inhabited

/-- Counts over a lexicon, each list in the order in which its keys first occur. -/
structure Statistics where
  total : Nat
  byPos : List (String × Nat)
  byLanguage : List (String × Nat)
  byKind : List (String × Nat)
deriving DecidableEq, Inhabited

/-- How often each text occurs. -/
def tally (texts : List String) : List (String × Nat) :=
  texts.eraseDups.map fun s => (s, texts.count s)

/-- A transform that a daughter language uses: a new one, or the name of one that is defined. -/
inductive TransformChoice where
  | named (name : String)
  | defined (t : Transform)
deriving DecidableEq, Inhabited

namespace Project

def findings (p : Project) : Except Fault (List Finding) :=
  validate p.graph p.transforms p.rules p.phonology p.scripts

/-- Fails with the first error that a finding stands for. -/
def check (p : Project) : Except Fault Unit := do
  Finding.raise (← p.findings)

def generator (p : Project) : Option Generator :=
  p.phonology.map fun phonology => { phonology := phonology }

/-- Words for the lexes that a phonetic rule gives one. -/
def seeded (p : Project) (picks : Picks) : Except Fault Project × Picks :=
  match p.generator with
  | none => (.ok p, picks)
  | some generator => match p.graph.seed generator picks with
    | (.ok graph, picks) => (.ok { p with graph := graph }, picks)
    | (.error fault, picks) => (.error fault, picks)

/-- Makes a project of its parts, with or without a check. -/
def build (p : Project) (checked : Bool) (picks : Picks) : Except Fault Project × Picks :=
  if checked then
    match p.check with
    | .ok () => p.seeded picks
    | .error fault => (.error fault, picks)
  else p.seeded picks

def lexicon (p : Project) : Lexicon :=
  ⟨p.graph, p.transforms, p.rules, p.scripts, p.generator⟩

/-- All words by id, in the order in which a fresh pass finds them. -/
def words (p : Project) (picks : Picks) : Except Fault (List (String × String)) × Picks :=
  match p.lexicon.resolveAll { picks := picks } with
  | (.ok found, pass) => (.ok (found.entries.map fun e => (e.1, e.2.text)), pass.picks)
  | (.error fault, pass) => (.error fault, pass.picks)

def word (p : Project) (id : String) (picks : Picks) : Except Fault String × Picks :=
  match p.lexicon.resolve id { picks := picks } with
  | (.ok w, pass) => (.ok w.text, pass.picks)
  | (.error fault, pass) => (.error fault, pass.picks)

def render (p : Project) (s : Selection) (condition : Option Predicate) (picks : Picks) :
    Except Fault (List Record) × Picks :=
  match p.lexicon.render s condition { picks := picks } with
  | (rows, pass) => (rows, pass.picks)

def statistics (p : Project) (language : Option String) : Statistics :=
  let xs := p.graph.select { language := language }
  { total := xs.length
    byPos := tally (xs.map fun x => x.pos.name)
    byLanguage := tally (xs.map fun x => if x.language.isEmpty then "None Set" else x.language)
    byKind := tally (xs.map Lexis.kind) }

/-- Gives a lexis another word of its own, or takes it away. An empty word is none. -/
def setWord (p : Project) (id : String) (w : Option Word) : Except Fault Project :=
  match p.graph.get id with
  | .ok x => .ok { p with graph := p.graph.set { x with word := w.filter fun w => !w.isEmpty } }
  | .error fault => .error fault

def replace (p : Project) (x : Lexis) : Except Fault Project :=
  match p.graph.replace x with
  | .ok graph => .ok { p with graph := graph }
  | .error fault => .error fault

/-- The names of the transforms chosen, with the table extended by the new ones. A name is never
given a second meaning. -/
def chooseTransforms : List TransformChoice → Table Transform →
    Except Fault (Table Transform × List String)
  | [], table => .ok (table, [])
  | .named name :: rest, table =>
    if table.contains name then
      match chooseTransforms rest table with
      | .ok (table, names) => .ok (table, name :: names)
      | .error fault => .error fault
    else .error (.unknownReference name .transform none)
  | .defined t :: rest, table =>
    if (table.get? t.name).all (· == t) then
      match chooseTransforms rest (table.put t.name t) with
      | .ok (table, names) => .ok (table, t.name :: names)
      | .error fault => .error fault
    else .error (.duplicate (.transform t.name))

/-- A new project with a daughter language, and the ids of its lexes. The plan's transforms are
those chosen. -/
def withDaughter (p : Project) (plan : DaughterPlan) (choices : List TransformChoice) (picks : Picks) :
    Except Fault (Project × List String) × Picks :=
  match chooseTransforms choices p.transforms with
  | .error fault => (.error fault, picks)
  | .ok (table, names) => match p.graph.withDaughter { plan with transforms := names } with
    | .error fault => (.error fault, picks)
    | .ok (graph, created) =>
      match build { p with graph := graph, transforms := table } true picks with
      | (.ok daughter, picks) => (.ok (daughter, created), picks)
      | (.error fault, picks) => (.error fault, picks)

/-- A short description by size. -/
def summary (p : Project) : String :=
  "Project(" ++ toString p.graph.size ++ " words, " ++ toString p.transforms.size ++
    " transforms, " ++ toString p.rules.length ++ " global rules)"

end Project

/-- A short description by size. -/
def Graph.summary (g : Graph) : String :=
  "LexisGraph(" ++ toString g.size ++ " nodes)"

end Etymology
