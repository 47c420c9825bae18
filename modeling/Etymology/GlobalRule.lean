import Etymology.Transform

namespace Etymology

/-- Which of the etymons a condition is asked of. -/
inductive Quantifier where
  | first
  | all
  | one
deriving DecidableEq, Inhabited

def Quantifier.name : Quantifier → String
  | .first => "first"
  | .all => "all"
  | .one => "one"

structure EtymonCondition where
  quantifier : Quantifier := .first
  predicate : Predicate
deriving DecidableEq, Inhabited

/-- No condition on etymons is met where there are none, not even one on all of them. -/
def EtymonCondition.holds (c : EtymonCondition) (etymons : List Lexis) : Bool :=
  match c.quantifier, etymons with
  | _, [] => false
  | .first, e :: _ => c.predicate.holds e
  | .all, es => es.all c.predicate.holds
  | .one, es => es.any c.predicate.holds

structure GlobalRule where
  name : String := ""
  primitives : List Primitive
  lexis : Option Predicate := none
  etymon : Option EtymonCondition := none
deriving DecidableEq, Inhabited

namespace GlobalRule

def appliesTo (r : GlobalRule) (x : Lexis) (etymons : List Lexis) : Bool :=
  Predicate.holdsOpt r.lexis x && r.etymon.all (·.holds etymons)

def steps (r : GlobalRule) : List Step :=
  r.primitives.map fun p => ⟨p, none, r.name⟩

/-- Runs every rule that applies, in the order of declaration. Whether a rule applies is decided
by the lexis as it is given, not by what earlier rules made of the word. -/
def applyAll (x : Lexis) (etymons : List Lexis) (scripts : Option ScriptRunner) :
    List GlobalRule → Word → Except Fault Word
  | [], w => .ok w
  | r :: rest, w =>
    if r.appliesTo x etymons then
      match runSteps x scripts r.steps w with
      | .ok w => applyAll x etymons scripts rest w
      | .error fault => .error fault
    else applyAll x etymons scripts rest w

end GlobalRule

namespace EtymonCondition

def quantified (q : Quantifier) (v : Value) : Except Fault EtymonCondition :=
  match Predicate.ofValue v with
  | .ok (some p) => .ok ⟨q, p⟩
  | .ok none => .error (.malformed (.nothingQuantified q.name) none)
  | .error fault => .error fault

/-- A condition without a quantifier is asked of the first etymon. -/
def ofValue (v : Value) : Except Fault (Option EtymonCondition) :=
  match v with
  | .mapping [(.text "all", inner)] => return some (← quantified .all inner)
  | .mapping [(.text "one", inner)] => return some (← quantified .one inner)
  | v => return (← Predicate.ofValue v).map (⟨.first, ·⟩)

end EtymonCondition

namespace GlobalRule

/-- The texts among keys that must all be texts, by code point. -/
def sortedKeys (keys : List Scalar) : Except Fault (List String) :=
  match Value.texts? (keys.map Value.scalar) with
  | some names => .ok (names.mergeSort fun a b => decide (a ≤ b))
  | none => .error .unsuitable

def conditionOf (entries : Entries) : Except Fault (Option Predicate × Option EtymonCondition) := do
  let lexis ← Predicate.ofValue (entries.getD "lexis")
  return (lexis, ← EtymonCondition.ofValue (entries.getD "etymon"))

/-- The entries of the condition of a rule; whatever counts as absent is no condition. -/
def conditionalEntries (v : Value) : Except Fault Entries := do
  let entries ← match v with
    | .mapping entries => pure entries
    | v => if v.isFalsy then pure [] else .error (.malformed .ruleConditionalNotMapping none)
  let unknown := (entries.map (·.1)).filter fun k => k != .text "lexis" && k != .text "etymon"
  if unknown.isEmpty then return entries
  else .error (.malformed (.unknownConditionalKeys (← sortedKeys unknown)) none)

def ofMapping (name : String) (entries : Entries) : Except Fault GlobalRule :=
  match entries.getD "transforms" with
  | .list items => do
    let condition ← conditionalEntries (entries.getD "conditional")
    let primitives ← items.mapM Primitive.ofValue
    let (lexis, etymon) ← conditionOf condition
    return ⟨name, primitives, lexis, etymon⟩
  | _ => .error (.malformed .transformsNotList none)

def nameAt (index : Int) : String :=
  "global #" ++ toString (index + 1)

/-- The rule at a place in the list of rules, which names it. -/
def ofValue (v : Value) (index : Int) : Except Fault GlobalRule :=
  match v with
  | .mapping entries => (ofMapping (nameAt index) entries).mapError (Transform.blame (nameAt index))
  | _ => .error (Transform.blame (nameAt index) (.malformed .definitionNotMapping none))

end GlobalRule

end Etymology
