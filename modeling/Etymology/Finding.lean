import Etymology.Graph.Cycle
import Etymology.Lexicon.Basic

namespace Etymology

inductive Severity where
  | error
  | warning
deriving DecidableEq, Inhabited

def Severity.name : Severity → String
  | .error => "ERROR"
  | .warning => "WARNING"

inductive PhonologyTable where
  | groups
  | lexisTypes
deriving DecidableEq, Inhabited

def PhonologyTable.name : PhonologyTable → String
  | .groups => "groups"
  | .lexisTypes => "lexis_types"

/-- What a lexicon says about itself before any word is resolved. An error rules out that it is
loaded; a warning does not. A key that a finding is about has a text. -/
inductive Finding where
  | missingAncestor (lexis ancestor : String)
  | missingTransform (lexis transform : String)
  | cycle (path : List String)
  | underspecified (lexis : String)
  | sharedOrder (lexis : String) (orders : List Int)
  | ignoredKey (lexis : String) (key : Value)
  | undeclaredKey (lexis : String) (key : Value)
  | undeclaredGroup (table : PhonologyTable) (key symbol : String)
  | noRunner (owner file : String)
  | unregisteredScript (owner file : String)
deriving DecidableEq, Inhabited

namespace Finding

def rule : Finding → String
  | .missingAncestor .. => "VAL-REF-001"
  | .missingTransform .. => "VAL-REF-002"
  | .cycle _ => "VAL-GRA-001"
  | .underspecified _ => "VAL-LEX-001"
  | .sharedOrder .. => "VAL-LEX-002"
  | .ignoredKey .. => "VAL-LEX-003"
  | .undeclaredKey .. => "VAL-PHO-001"
  | .undeclaredGroup .. => "VAL-PHO-002"
  | .noRunner .. => "VAL-SCR-001"
  | .unregisteredScript .. => "VAL-SCR-001"

def severity : Finding → Severity
  | .missingAncestor .. => .error
  | .missingTransform .. => .error
  | .cycle _ => .error
  | .underspecified _ => .warning
  | .sharedOrder .. => .warning
  | .ignoredKey .. => .warning
  | .undeclaredKey .. => .error
  | .undeclaredGroup .. => .error
  | .noRunner .. => .warning
  | .unregisteredScript .. => .warning

def entityType : Finding → String
  | .undeclaredGroup table .. => table.name
  | .noRunner .. => "transform"
  | .unregisteredScript .. => "transform"
  | _ => "lexis"

def entity : Finding → String
  | .missingAncestor lexis _ => lexis
  | .missingTransform lexis _ => lexis
  | .cycle path => path.headD ""
  | .underspecified lexis => lexis
  | .sharedOrder lexis _ => lexis
  | .ignoredKey lexis _ => lexis
  | .undeclaredKey lexis _ => lexis
  | .undeclaredGroup _ key _ => key
  | .noRunner owner _ => owner
  | .unregisteredScript owner _ => owner

def message : Finding → String
  | .missingAncestor _ ancestor => "Etymon '" ++ ancestor ++ "' does not exist"
  | .missingTransform _ transform => "Transform '" ++ transform ++ "' does not exist"
  | .cycle path => "Etymology cycle: " ++ " -> ".intercalate path
  | .underspecified _ => "Lexis has no word, no generate key and no etymons"
  | .sharedOrder .. => "Etymons share an agglutination order"
  | .ignoredKey _ key => "Generate key '" ++ key.written?.getD "" ++ "' is ignored"
  | .undeclaredKey _ key => "Generate key '" ++ key.written?.getD "" ++ "' is not declared"
  | .undeclaredGroup _ _ symbol => "Pattern references undeclared group '" ++ symbol ++ "'"
  | .noRunner _ file => "Script '" ++ file ++ "' used but no script runner is configured"
  | .unregisteredScript _ file => "Script '" ++ file ++ "' is not registered"

/-- What else is known of a finding, by name. -/
def details : Finding → Option (List (String × Value))
  | .missingAncestor _ ancestor =>
    some [("reference", .text ancestor), ("kind", .text ReferenceKind.lexis.name)]
  | .missingTransform _ transform =>
    some [("reference", .text transform), ("kind", .text ReferenceKind.transform.name)]
  | .cycle path => some [("path", .list (path.map .text))]
  | .underspecified _ => none
  | .sharedOrder _ orders => some [("orders", .list (orders.map .int))]
  | .ignoredKey .. => none
  | .undeclaredKey _ key => some [("symbol", key), ("kind", .text SymbolKind.key.name)]
  | .undeclaredGroup _ _ symbol =>
    some [("symbol", .text symbol), ("kind", .text SymbolKind.group.name)]
  | .noRunner _ file => some [("file", .text file)]
  | .unregisteredScript _ file => some [("file", .text file)]

/-- The fault that an error stands for. -/
def fault? : Finding → Option Fault
  | .missingAncestor lexis ancestor => some (.unknownReference ancestor .lexis (some lexis))
  | .missingTransform lexis transform => some (.unknownReference transform .transform (some lexis))
  | .cycle path => some (.cycle path)
  | .undeclaredKey _ key => some (.unknownSymbol key .key)
  | .undeclaredGroup _ _ symbol => some (.unknownSymbol (.text symbol) .group)
  | _ => none

/-- Fails with the first error, if there is one. -/
def raise (findings : List Finding) : Except Fault Unit :=
  match findings.findSome? fault? with
  | some fault => .error fault
  | none => .ok ()

end Finding

namespace Graph

def missingAncestors (g : Graph) : List Finding :=
  g.nodes.flatMap fun x =>
    (x.etymons.filter fun e => !g.contains e.ancestor).map fun e => .missingAncestor x.id e.ancestor

def missingTransforms (g : Graph) (transforms : Table Transform) : List Finding :=
  g.nodes.flatMap fun x => x.etymons.flatMap fun e =>
    (e.transforms.filter fun name => !transforms.contains name).map fun name =>
      .missingTransform x.id name

def cycles (g : Graph) : List Finding :=
  (g.findCycle?.map Finding.cycle).toList

def underspecified (g : Graph) : List Finding :=
  (g.nodes.filter fun x => x.literal?.isNone && x.generate.isFalsy && x.etymons.isEmpty).map fun x =>
    .underspecified x.id

def sharedOrders (g : Graph) : List Finding :=
  (g.nodes.filter Lexis.sharesOrder).map fun x => .sharedOrder x.id (x.etymons.map Etymon.order)

/-- A finding tells the key of a lexis by its text. -/
def tellKey (x : Lexis) (finding : Finding) : Except Fault Finding :=
  (Fault.orUnsuitable x.generate.written?).map fun _ => finding

/-- A word or etymons leave a key without effect. -/
def ignoresKey (x : Lexis) : Bool :=
  x.generate.isTruthy && (x.literal?.isSome || !x.etymons.isEmpty)

def ignoredKeys (g : Graph) : Except Fault (List Finding) :=
  (g.nodes.filter ignoresKey).mapM fun x => tellKey x (.ignoredKey x.id x.generate)

/-- A list or mapping cannot be looked up as a key. -/
def keyDeclared (p : Option Phonology) (key : Value) : Except Fault Bool :=
  match key with
  | .scalar (.text s) => .ok (p.any fun p => p.lexisTypes.contains s)
  | .scalar _ => .ok false
  | _ => .error .unsuitable

/-- The finding on the key of a lexis, if it is not declared. -/
def keyFindings (p : Option Phonology) (x : Lexis) : Except Fault (List Finding) := do
  if ← keyDeclared p x.generate then return []
  else return [← tellKey x (.undeclaredKey x.id x.generate)]

def undeclaredKeys (g : Graph) (p : Option Phonology) : Except Fault (List Finding) :=
  ((g.nodes.filter Lexis.isGenerated).mapM (keyFindings p)).map List.flatten

end Graph

namespace Phonology

def undeclaredIn (p : Phonology) (name : PhonologyTable) (t : Table (List Pattern)) : List Finding :=
  t.entries.flatMap fun e => e.2.flatMap fun pattern => pattern.filterMap fun
    | .group symbol => if p.groups.contains symbol then none else some (.undeclaredGroup name e.1 symbol)
    | .phoneme _ => none

def undeclaredGroups (p : Phonology) : List Finding :=
  p.undeclaredIn .groups p.groups ++ p.undeclaredIn .lexisTypes p.lexisTypes

end Phonology

/-- The finding on a script that is asked for, where the runner is known not to have it. -/
def scriptFinding? (scripts : Option ScriptRunner) (owner file : String) : Option Finding :=
  match scripts with
  | none => some (.noRunner owner file)
  | some runner => match runner.knows? with
    | some knows => if knows file then none else some (.unregisteredScript owner file)
    | none => none

def missingScripts (transforms : Table Transform) (rules : List GlobalRule)
    (scripts : Option ScriptRunner) : List Finding :=
  let owners := transforms.values.map (fun t => (t.name, t.primitives)) ++
    rules.map fun r => (r.name, r.primitives)
  owners.flatMap fun (owner, primitives) => primitives.filterMap fun p =>
    p.scriptFile?.bind (scriptFinding? scripts owner)

/-- All findings, rule by rule. -/
def validate (g : Graph) (transforms : Table Transform) (rules : List GlobalRule)
    (p : Option Phonology) (scripts : Option ScriptRunner) : Except Fault (List Finding) := do
  let ignoredKeys ← g.ignoredKeys
  let undeclaredKeys ← g.undeclaredKeys p
  return g.missingAncestors ++ g.missingTransforms transforms ++ g.cycles ++ g.underspecified ++
    g.sharedOrders ++ ignoredKeys ++ undeclaredKeys ++
    (p.map Phonology.undeclaredGroups).getD [] ++ missingScripts transforms rules scripts

end Etymology
