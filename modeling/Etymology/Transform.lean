import Etymology.Predicate.Definition
import Etymology.Primitive.Definition

namespace Etymology

structure Transform where
  name : String
  primitives : List Primitive
  conditional : Option Predicate := none
deriving DecidableEq, Inhabited

/-- One primitive with the condition that gates it and the name of what it belongs to. -/
structure Step where
  primitive : Primitive
  conditional : Option Predicate := none
  label : String := ""
deriving DecidableEq, Inhabited

/-- Applies steps in order. Conditions are asked of the lexis that the word comes from, which stays
the same while the word changes; a step whose condition fails passes the word on. -/
def runSteps (source : Lexis) (scripts : Option ScriptRunner) : List Step → Word → Except Fault Word
  | [], w => .ok w
  | s :: rest, w =>
    if Predicate.holdsOpt s.conditional source then
      match s.primitive.apply w source scripts with
      | .ok w => runSteps source scripts rest w
      | .error fault => .error fault
    else runSteps source scripts rest w

namespace Transform

def steps (t : Transform) : List Step :=
  t.primitives.map fun p => ⟨p, t.conditional, t.name⟩

def chain (ts : List Transform) : List Step :=
  ts.flatMap steps

/-- Says which transform a malformed definition belongs to. -/
def blame (name : String) : Fault → Fault
  | .malformed cause none => .malformed cause (some name)
  | fault => fault

def ofParts (primitives conditional : Value) : Except Fault (List Primitive × Option Predicate) :=
  match primitives with
  | .list items => do
    let ps ← items.mapM Primitive.ofValue
    return (ps, ← Predicate.ofValue conditional)
  | _ => .error (.malformed .transformsNotList none)

/-- A definition is a mapping, or the bare list of its primitives. -/
def ofValue (name : String) (v : Value) : Except Fault Transform :=
  let parts := match v with
    | .list items => ofParts (.list items) .null
    | .mapping entries => ofParts (Entries.getD entries "transforms") (Entries.getD entries "conditional")
    | _ => .error (.malformed .definitionNotMapping none)
  match parts with
  | .ok (primitives, conditional) => .ok ⟨name, primitives, conditional⟩
  | .error fault => .error (blame name fault)

end Transform

end Etymology
