import Etymology.Primitive.Basic

namespace Etymology

/-- Letters in an argument: as text that is still to be split, or one by one. -/
inductive Spelling where
  | text (s : String)
  | letters (ls : List String)
deriving DecidableEq, Inhabited

def Spelling.word : Spelling → Word
  | .text s => .ofText s
  | .letters ls => .ofLetters ls

def Place.ofValue? : Value → Option Place
  | .scalar (.text "first") => some .first
  | .scalar (.text "last") => some .last
  | .scalar (.text "all") => some .all
  | _ => none

namespace Primitive

def placeArg (kind : PrimitiveKind) (args : Entries) (key : String) : Except Fault Place :=
  match Place.ofValue? (args.getD key) with
  | some place => .ok place
  | none => .error (.telling (args.getD key).quoted? fun got => .malformed (.badPlace kind key got) none)

/-- The letters under a key. Text that is empty is refused unless it may be; a list of letters is
taken as it stands. -/
def spellingArg (kind : PrimitiveKind) (args : Entries) (key : String) (mayBeEmpty : Bool := false) :
    Except Fault Spelling :=
  match args.get? key with
  | none => .error (.malformed (.missingField kind key) none)
  | some (.scalar (.text s)) =>
    if s.isEmpty && !mayBeEmpty then .error (.malformed (.fieldEmpty kind key) none) else .ok (.text s)
  | some (.list items) => match Value.texts? items with
    | some letters => .ok (.letters letters)
    | none => .error (.malformed (.fieldNotText kind key) none)
  | some _ => .error (.malformed (.fieldNotText kind key) none)

def wordArg (kind : PrimitiveKind) (args : Entries) (key : String) (mayBeEmpty : Bool := false) :
    Except Fault Word :=
  (spellingArg kind args key mayBeEmpty).map Spelling.word

def letterArg (kind : PrimitiveKind) (args : Entries) (key : String) : Except Fault String := do
  let letters := match ← spellingArg kind args key with
    | .text s => splitLetters s
    | .letters ls => ls
  match letters with
  | [l] => .ok l
  | _ => .error (.malformed (.fieldNotOneLetter kind key) none)

/-- The two sequences may stand in a mapping of their own under `letter`. -/
def letterReplaceOf (args : Entries) : Except Fault Primitive := do
  let sequences ← match args.getD "letter" with
    | .scalar .null => .ok args
    | .mapping inner => .ok inner
    | _ => .error (.malformed .letterNotMapping none)
  let old ← wordArg .letterReplace sequences "old"
  let new ← wordArg .letterReplace sequences "new" true
  let place ← placeArg .letterReplace args "replace"
  return .letterReplace old new place

def arrangedOf : Value → Except Fault Arranged
  | .scalar (.text s) => .ok (.text s)
  | .scalar (.int n) => if n < 0 then .error (.malformed .negativePosition none) else .ok (.position n)
  | v => .error (.telling v.quoted? fun got => .malformed (.badArranged got) none)

/-- The list may stand by itself or under `letters`. -/
def letterArrayOf (args : Value) : Except Fault Primitive :=
  let items := match args with
    | .mapping entries => Entries.getD entries "letters"
    | v => v
  match items with
  | .list (first :: rest) => return .letterArray (← (first :: rest).mapM arrangedOf)
  | _ => .error (.malformed .noArrangement none)

def scriptOf (args : Entries) : Except Fault Primitive := do
  match ← spellingArg .script args "file" with
  | .text file => return .script file
  | .letters _ => .error (.malformed .fileNotText none)

def ofMapping (kind : PrimitiveKind) (args : Entries) : Except Fault Primitive :=
  match kind with
  | .letterReplace => letterReplaceOf args
  | .letterRemove => do
    let old ← wordArg .letterRemove args "letter"
    return .letterRemove old (← placeArg .letterRemove args "position")
  | .double => do
    let letter ← letterArg .double args "letter"
    return .double letter (← placeArg .double args "position")
  | .dedouble => do
    let letter ← letterArg .dedouble args "letter"
    return .dedouble letter (← placeArg .dedouble args "position")
  | .append => return .append (← wordArg .append args "value")
  | .prepend => return .prepend (← wordArg .prepend args "value")
  | .matchReplace => do
    let old ← wordArg .matchReplace args "old"
    return .matchReplace old (← wordArg .matchReplace args "new" true)
  | .letterArray => letterArrayOf (.mapping args)
  | .loanword => return .loanword
  | .script => scriptOf args

/-- Null stands for no arguments. -/
def ofArguments (kind : PrimitiveKind) (args : Value) : Except Fault Primitive :=
  match kind, args with
  | _, .mapping entries => ofMapping kind entries
  | _, .scalar .null => ofMapping kind []
  | .loanword, _ => return .loanword
  | .letterArray, v => letterArrayOf v
  | _, _ => .error (.malformed (.argumentsNotMapping kind) none)

def ofValue (v : Value) : Except Fault Primitive :=
  match v with
  | .scalar (.text "loanword") => return .loanword
  | .mapping [(kind, args)] =>
    match kind with
    | .text name => match PrimitiveKind.ofName? name with
      | some known => ofArguments known args
      | none => .error (.malformed (.unknownPrimitive name) none)
    | kind => .error (.telling kind.written? fun s => .malformed (.unknownPrimitive s) none)
  | v => .error (.telling v.quoted? fun got => .malformed (.notPrimitive got) none)

end Primitive

end Etymology
