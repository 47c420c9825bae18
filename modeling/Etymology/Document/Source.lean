import Etymology.Fault

namespace Etymology.Document

/-- A path by its components. A path that begins with one slash or two is absolute. -/
structure Path where
  slashes : Nat := 0
  components : List String := []
deriving DecidableEq, Inhabited

namespace Path

def splitSlashes : List Char → List (List Char)
  | [] => [[]]
  | c :: cs =>
    if c == '/' then [] :: splitSlashes cs
    else match splitSlashes cs with
      | p :: ps => (c :: p) :: ps
      | [] => [[c]]

/-- Empty components and single full stops say nothing and are left out. More than two slashes at
the start are as good as one. -/
def ofText (s : String) : Path :=
  let cs := s.toList
  let slashes := (cs.takeWhile (· == '/')).length
  { slashes := if slashes ≤ 2 then slashes else 1
    components := ((splitSlashes cs).map String.ofList).filter fun p => p != "" && p != "." }

def text (p : Path) : String :=
  let s := String.ofList (List.replicate p.slashes '/') ++ "/".intercalate p.components
  if s.isEmpty then "." else s

end Path

/-- The files in the current directory, if there is one to look into. -/
abbrev Files := Option (List (String × String))

inductive Lookup where
  | file (text : String)
  | directory
  | missing
  /-- The system refuses to look for a name of such a length. -/
  | nameTooLong
deriving DecidableEq, Inhabited

/-- A system looks for the first component that it does not know, and refuses one of more than
255 bytes. The components `..` lead to directories. -/
def Path.lookup (p : Path) (files : Files) : Lookup :=
  let text := p.text
  match (files.getD []).lookup text with
  | some content => .file content
  | none =>
    if text.toList.contains '\x00' then .missing
    else if 4096 ≤ text.utf8ByteSize then .nameTooLong
    else match p.components.dropWhile (· == "..") with
      | [] => if files.isSome then .directory else .missing
      | first :: _ => if 255 < first.utf8ByteSize then .nameTooLong else .missing

inductive Source where
  | entries (es : Entries)
  | text (s : String)
  | path (s : String)
deriving Inhabited

/-- A text on one line names a file if it has a slash or backslash in it, or ends like the name of
a file of documents. -/
def looksLikePath (s : String) : Bool :=
  let cs := s.toList
  !cs.contains '\n' && (cs.contains '/' || cs.contains '\\' ||
    [".yaml", ".yml", ".json"].any fun ending => ending.toList.isSuffixOf cs)

/-- Why a library cannot read a text: what it reports itself, with the line of the mark if there is
one, counted from zero, or any other failure. -/
inductive YamlFault where
  | reported (problem : String) (mark : Option Nat)
  | other
deriving DecidableEq, Inhabited

/-- A library that reads the text of one document. -/
abbrev SafeLoad := String → Except YamlFault Value

/-- The entries of the document that a text holds. The origin is named in what is said of a text
that holds none. -/
def load (safeLoad : SafeLoad) (text origin : String) : Except Fault Entries :=
  match safeLoad text with
  | .error (.reported problem mark) => .error (.document (.unreadable origin problem (mark.map (· + 1))))
  | .error .other => .error .unsuitable
  | .ok (.scalar .null) => .error (.document (.empty origin))
  | .ok (.mapping es) => .ok es
  | .ok _ => .error (.document (.rootNotMapping origin))

/-- Line ends in files are all read as line feeds. -/
def unifyBreaks : List Char → List Char
  | '\r' :: '\n' :: cs => '\n' :: unifyBreaks cs
  | '\r' :: cs => '\n' :: unifyBreaks cs
  | c :: cs => c :: unifyBreaks cs
  | [] => []

def loadFile (safeLoad : SafeLoad) (path : String) (files : Files) : Except Fault Entries :=
  let p := Path.ofText path
  match p.lookup files with
  | .file text => load safeLoad (String.ofList (unifyBreaks text.toList)) p.text
  | .missing => .error (.missingFile p.text)
  | .directory => .error .unsuitable
  | .nameTooLong => .error .unsuitable

def Source.load (source : Source) (safeLoad : SafeLoad) (files : Files) : Except Fault Entries :=
  match source with
  | .entries es => .ok es
  | .path s => loadFile safeLoad s files
  | .text s => if looksLikePath s then loadFile safeLoad s files else Document.load safeLoad s "string"

end Etymology.Document
