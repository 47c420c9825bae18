import Etymology.Fault
import Etymology.Lexis.Basic

namespace Etymology

/-- The distinct texts of a list, by code point. -/
def distinctSorted (texts : List String) : List String :=
  texts.eraseDups.mergeSort fun a b => decide (a ≤ b)

/-- What a script is told about the lexis that is transformed. Tags and historical metadata are
sets, so each is given once and in a fixed order. -/
structure ScriptContext where
  lexis : String
  pos : PartOfSpeech
  language : String
  tags : List String
  archaic : Bool
  history : List String
deriving DecidableEq, Inhabited

def ScriptContext.ofLexis (x : Lexis) : ScriptContext :=
  ⟨x.id, x.pos, x.language, distinctSorted x.tags, x.archaic, distinctSorted x.history⟩

inductive ScriptOutcome where
  | returned (v : Value)
  | failed (cause : ScriptFault)
  /-- A failure for which the script itself names a lexis and a file. -/
  | failedAt (lexis file : String) (cause : ScriptFault)
deriving DecidableEq, Inhabited

/-- A script gives an outcome for each word and context. -/
abbrev Script := String → ScriptContext → ScriptOutcome

/-- What the host supplies. A runner need not be able to tell which files it knows. -/
structure ScriptRunner where
  run : String → Script
  knows? : Option (String → Bool) := none

namespace ScriptRunner

/-- Runs a script on a word. Without a runner every script fails, and so does one that returns
anything but text. -/
def apply (scripts : Option ScriptRunner) (file word : String) (source : Lexis) :
    Except Fault String :=
  match scripts with
  | none => .error (.scriptFailed source.id file .noRunner)
  | some runner =>
    match runner.run file word (.ofLexis source) with
    | .returned (.scalar (.text s)) => .ok s
    | .returned v => .error (.scriptFailed source.id file (.notText v))
    | .failed cause => .error (.scriptFailed source.id file cause)
    | .failedAt lexis at_ cause => .error (.scriptFailed lexis at_ cause)

end ScriptRunner

/-- Scripts by file name. A later script of the same name takes the place of the earlier one. -/
structure ScriptRegistry where
  scripts : List (String × Script) := []

namespace ScriptRegistry

def get? (r : ScriptRegistry) (file : String) : Option Script :=
  r.scripts.lookup file

def contains (r : ScriptRegistry) (file : String) : Bool :=
  (r.get? file).isSome

def register (r : ScriptRegistry) (file : String) (script : Script) : ScriptRegistry :=
  ⟨(file, script) :: r.scripts⟩

def run (r : ScriptRegistry) (file : String) : Script :=
  match r.get? file with
  | some script => script
  | none => fun _ _ => .failed (.unregistered file)

/-- A registry as a runner, which knows its own files. -/
def runner (r : ScriptRegistry) : ScriptRunner :=
  ⟨r.run, some r.contains⟩

end ScriptRegistry

end Etymology
