import Etymology.Fault
import Etymology.Table
import Etymology.Text.Runs

namespace Etymology

inductive PatternItem where
  | phoneme (text : String)
  | group (symbol : String)
deriving DecidableEq, Inhabited

abbrev Pattern := List PatternItem

namespace PatternItem

/-- A token with any lowercase character is a phoneme; any other names a group. -/
def ofToken (token : List Char) : PatternItem :=
  if token.any Text.isLower then .phoneme (String.ofList token) else .group (String.ofList token)

end PatternItem

namespace Pattern

/-- A pattern with a blank in it consists of the tokens around the blanks, and any other of its
single characters. -/
def ofText (s : String) : Pattern :=
  let cs := s.toList
  let tokens := if cs.any Text.isBlank then Text.tokens cs else cs.map fun c => [c]
  tokens.map PatternItem.ofToken

def ofValue (v : Value) : Except Fault Pattern :=
  match v with
  | .scalar (.text s) => return ofText s
  | v => .error (.telling v.quoted? fun got => .malformed (.patternNotText got) none)

end Pattern

structure Phonology where
  groups : Table (List Pattern) := {}
  lexisTypes : Table (List Pattern) := {}
deriving Inhabited

namespace Phonology

/-- Declarations of the second phonology take the place of those of the first. -/
def merge (p q : Phonology) : Phonology where
  groups := p.groups.putAll q.groups.entries
  lexisTypes := p.lexisTypes.putAll q.lexisTypes.entries

/-- The group that an item refers to, if no such group is declared. -/
def undeclared? (p : Phonology) : PatternItem → Option String
  | .phoneme _ => none
  | .group symbol => if p.groups.contains symbol then none else some symbol

/-- Fails with the first reference to a group that is not declared. -/
def check (p : Phonology) : Except Fault Unit :=
  let patterns := (p.groups.values ++ p.lexisTypes.values).flatten
  match patterns.findSome? fun pattern => pattern.findSome? p.undeclared? with
  | some symbol => .error (.unknownSymbol (.text symbol) .group)
  | none => .ok ()

/-- A single pattern stands for itself alone. -/
def alternativesOf (table : String) (key : Scalar) (v : Value) : Except Fault (List Pattern) :=
  match v with
  | .scalar (.text s) => return [Pattern.ofText s]
  | .list (first :: rest) => (first :: rest).mapM Pattern.ofValue
  | _ => .error (.telling key.written? fun k => .malformed (.badAlternatives table k) none)

def tableOfEntries (name : String) (t : Table (List Pattern)) :
    List (Scalar × Value) → Except Fault (Table (List Pattern))
  | [] => .ok t
  | (key, v) :: rest => do
    let alternatives ← alternativesOf name key v
    let symbol ← Fault.orUnsuitable key.written?
    tableOfEntries name (t.put symbol alternatives) rest

def tableOf (name : String) (v : Value) : Except Fault (Table (List Pattern)) :=
  match v with
  | .mapping entries => tableOfEntries name {} entries
  | v => if v.isFalsy then return {} else .error (.malformed (.tableNotMapping name) none)

/-- The phonology that the section of a document describes. Keys are taken by their texts. -/
def ofEntries (entries : Entries) : Except Fault Phonology := do
  let groups ← tableOf "groups" (entries.getD "groups")
  return ⟨groups, ← tableOf "lexis_types" (entries.getD "lexis_types")⟩

/-- Only a mapping describes a phonology. -/
def ofValue (v : Value) : Except Fault Phonology :=
  match v with
  | .mapping entries => ofEntries entries
  | _ => .error .unsuitable

end Phonology

end Etymology
