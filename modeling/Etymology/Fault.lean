import Etymology.PartOfSpeech
import Etymology.Predicate.Field
import Etymology.Primitive.Kind

namespace Etymology

/-- How a definition fails to fit its schema. Values are told by their texts. -/
inductive Malformation where
  | notPrimitive (got : String)
  | unknownPrimitive (kind : String)
  | argumentsNotMapping (kind : PrimitiveKind)
  | missingField (kind : PrimitiveKind) (key : String)
  | fieldNotText (kind : PrimitiveKind) (key : String)
  | fieldEmpty (kind : PrimitiveKind) (key : String)
  | fieldNotOneLetter (kind : PrimitiveKind) (key : String)
  | badPlace (kind : PrimitiveKind) (key got : String)
  | letterNotMapping
  | noArrangement
  | badArranged (got : String)
  | negativePosition
  | fileNotText
  | conditionalNotMapping (got : Value)
  | conditionalEmpty
  | nothingNegated
  | badFieldSpec (field : Field)
  | badComparator (field : Field)
  | oneofNotList (field : Field)
  | unknownComparator (field : Field) (key : String)
  | definitionNotMapping
  | transformsNotList
  | ruleConditionalNotMapping
  | unknownConditionalKeys (keys : List String)
  | nothingQuantified (quantifier : String)
  | patternNotText (got : String)
  | tableNotMapping (table : String)
  | badAlternatives (table key : String)
deriving DecidableEq, Inhabited

def Malformation.message : Malformation → String
  | .notPrimitive got => "primitive must be 'loanword' or a single-key mapping, got " ++ got
  | .unknownPrimitive kind =>
    "unknown primitive '" ++ kind ++ "'. Valid: " ++
      ", ".intercalate (PrimitiveKind.all.map PrimitiveKind.name)
  | .argumentsNotMapping kind => "'" ++ kind.name ++ "' arguments must be a mapping"
  | .missingField kind key => "'" ++ kind.name ++ "': missing required field '" ++ key ++ "'"
  | .fieldNotText kind key => "'" ++ kind.name ++ "': field '" ++ key ++ "' must be text"
  | .fieldEmpty kind key => "'" ++ kind.name ++ "': field '" ++ key ++ "' cannot be empty"
  | .fieldNotOneLetter kind key => "'" ++ kind.name ++ "': field '" ++ key ++ "' must be one letter"
  | .badPlace kind key got =>
    "'" ++ kind.name ++ "': '" ++ key ++ "' must be one of first, last, all; got " ++ got
  | .letterNotMapping => "'letter_replace': 'letter' must be a mapping"
  | .noArrangement => "'letter_array': 'letters' must be a non-empty list"
  | .badArranged got => "'letter_array': entries must be positions or letters, got " ++ got
  | .negativePosition => "'letter_array': positions cannot be negative"
  | .fileNotText => "'script_transform': 'file' must be a string"
  | .conditionalNotMapping got => "conditional must be a mapping, got " ++ got.typeName
  | .conditionalEmpty => "conditional cannot be empty"
  | .nothingNegated => "'not' needs a conditional to negate"
  | .badFieldSpec field =>
    "field '" ++ field.name ++ "' needs one of 'match', 'not', 'equals' or 'oneof'"
  | .badComparator field =>
    "field '" ++ field.name ++ "' comparator must be \x7bequals: ...\x7d or \x7boneof: [...]\x7d"
  | .oneofNotList field => "field '" ++ field.name ++ "': 'oneof' needs a list"
  | .unknownComparator field key =>
    "field '" ++ field.name ++ "': unknown comparator '" ++ key ++ "'"
  | .definitionNotMapping => "definition must be a mapping"
  | .transformsNotList => "'transforms' must be a list"
  | .ruleConditionalNotMapping => "'conditional' must be a mapping"
  | .unknownConditionalKeys keys => "unknown conditional keys: " ++ ", ".intercalate keys
  | .nothingQuantified quantifier => "etymon '" ++ quantifier ++ "' needs a conditional"
  | .patternNotText got => "phonetic pattern must be a string, got " ++ got
  | .tableNotMapping table => "phonetics '" ++ table ++ "' must be a mapping"
  | .badAlternatives table key =>
    "phonetics '" ++ table ++ "." ++ key ++ "' must be a non-empty list of patterns"

/-- How the entry of one lexis in a document is at fault. -/
inductive EntryFault where
  | notMapping
  | badWord
  | badPartOfSpeech (got : Value)
  | badArchaic
  | notList (key : String)
  | noAncestor (number : Nat)
  | badOrder
  | derivativeNotMapping (number : Nat)
deriving DecidableEq, Inhabited

def EntryFault.message (id : String) : EntryFault → String
  | .notMapping => "Word '" ++ id ++ "' must be a mapping"
  | .badWord => "Word '" ++ id ++ "': 'word' must be text or a list of letters"
  | .badPartOfSpeech got => "Word '" ++ id ++ "': " ++ PartOfSpeech.refusal got
  | .badArchaic => "Word '" ++ id ++ "': 'archaic' must be true or false"
  | .notList key => "Word '" ++ id ++ "': '" ++ key ++ "' must be a list"
  | .noAncestor number => "Word '" ++ id ++ "': etymon #" ++ toString number ++ " needs an 'etymon' id"
  | .badOrder => "Word '" ++ id ++ "': agglutination_order must be an integer"
  | .derivativeNotMapping number =>
    "Word '" ++ id ++ "': derivative #" ++ toString number ++ " must be a mapping"

/-- How a document is at fault. -/
inductive DocumentFault where
  /-- The text breaks the rules of its notation, mostly at a known line. -/
  | unreadable (origin problem : String) (line : Option Nat)
  | empty (origin : String)
  | rootNotMapping (origin : String)
  | unknownSections (names : List String)
  | sectionNotMapping (name : String)
  | sectionNotList (name : String)
  | entry (id : String) (cause : EntryFault)
deriving DecidableEq, Inhabited

def DocumentFault.message : DocumentFault → String
  | .unreadable origin problem line => "Invalid YAML in " ++ origin ++ ": " ++ problem ++
      match line with
      | some n => " (line " ++ toString n ++ ")"
      | none => ""
  | .empty origin => "Empty document: " ++ origin
  | .rootNotMapping origin => "Document root must be a mapping: " ++ origin
  | .unknownSections names => "Unknown top-level keys: " ++ ", ".intercalate names
  | .sectionNotMapping name => "Field '" ++ name ++ "' must be a mapping"
  | .sectionNotList name => "Field '" ++ name ++ "' must be a list"
  | .entry id cause => cause.message id

inductive ReferenceKind where
  | lexis
  | transform
deriving DecidableEq, Inhabited

def ReferenceKind.name : ReferenceKind → String
  | .lexis => "lexis"
  | .transform => "transform"

inductive SymbolKind where
  | group
  | key
deriving DecidableEq, Inhabited

def SymbolKind.name : SymbolKind → String
  | .group => "group"
  | .key => "key"

/-- Why a script gave no text. -/
inductive ScriptFault where
  | noRunner
  | unregistered (file : String)
  | notText (got : Value)
  /-- What the script itself reports. -/
  | told (reason : String)
deriving DecidableEq, Inhabited

def ScriptFault.message : ScriptFault → String
  | .noRunner => "no script runner configured"
  | .unregistered file => "no script registered for '" ++ file ++ "'"
  | .notText got => "expected a string, got " ++ got.typeName
  | .told reason => reason

/-- What is declared a second time. -/
inductive Duplicate where
  | lexis (id : String)
  | entry (id : String)
  | transform (name : String)
deriving DecidableEq, Inhabited

def Duplicate.message : Duplicate → String
  | .lexis id => "lexis '" ++ id ++ "' already exists"
  | .entry id => "Key '" ++ id ++ "' found multiple times"
  | .transform name => "transform '" ++ name ++ "' is already defined differently"

inductive Fault where
  | unknownReference (reference : String) (kind : ReferenceKind) (referrer : Option String)
  | unknownField (field : String)
  /-- The symbol has a text. -/
  | unknownSymbol (symbol : Value) (kind : SymbolKind)
  | malformed (cause : Malformation) (transform : Option String)
  | cycle (path : List String)
  | underspecified (lexis : String)
  | tooDeep (symbol : String) (limit : Int)
  | scriptFailed (lexis file : String) (cause : ScriptFault)
  | duplicate (what : Duplicate)
  | document (cause : DocumentFault)
  | missingFile (path : String)
  /-- A value has no meaning at its place, such as a list for a key, or no text where one is asked
  for. -/
  | unsuitable
deriving DecidableEq, Inhabited

/-- What is asked of a value, where the value has it. -/
def Fault.orUnsuitable {α : Type} (a? : Option α) : Except Fault α :=
  match a? with
  | some a => .ok a
  | none => .error .unsuitable

/-- The fault that tells a value by its text, where the value has one. -/
def Fault.telling (text? : Option String) (fault : String → Fault) : Fault :=
  match text? with
  | some s => fault s
  | none => .unsuitable

/-- The fault of a key that names no type of words. -/
def Fault.unknownKey (key : Value) : Fault :=
  .telling key.written? fun _ => .unknownSymbol key .key

def Fault.message : Fault → String
  | .unknownReference reference kind referrer =>
    "unknown " ++ kind.name ++ " '" ++ reference ++ "'" ++
      match referrer with
      | some r => " referenced by '" ++ r ++ "'"
      | none => ""
  | .unknownField field => "unknown lexis field '" ++ field ++ "' in conditional"
  | .unknownSymbol symbol kind => "unknown phonetic " ++ kind.name ++ " '" ++ symbol.written?.getD "" ++ "'"
  | .malformed cause transform =>
    (match transform with
      | some t => "transform '" ++ t ++ "': "
      | none => "") ++ cause.message
  | .cycle path => "etymology cycle detected: " ++ " -> ".intercalate path
  | .underspecified lexis => "lexis '" ++ lexis ++ "' has no word, no generate key and no etymons"
  | .tooDeep symbol limit => "phonetic expansion of '" ++ symbol ++ "' exceeded depth " ++ toString limit
  | .scriptFailed lexis file cause =>
    "script '" ++ file ++ "' failed for lexis '" ++ lexis ++ "': " ++ cause.message
  | .duplicate what => what.message
  | .document cause => cause.message
  | .missingFile path => "File not found: " ++ path
  | .unsuitable => "a value has no meaning at its place"

end Etymology
