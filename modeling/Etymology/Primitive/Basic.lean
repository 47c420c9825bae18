import Etymology.Letters.Edit
import Etymology.Primitive.Kind
import Etymology.Script

namespace Etymology

inductive Primitive where
  | letterReplace (old new : Word) (place : Place)
  | letterRemove (old : Word) (place : Place)
  | double (letter : String) (place : Place)
  | dedouble (letter : String) (place : Place)
  | append (ending : Word)
  | prepend (beginning : Word)
  | matchReplace (old new : Word)
  | letterArray (items : List Arranged)
  /-- Takes the word over unchanged. -/
  | loanword
  | script (file : String)
deriving DecidableEq, Inhabited

namespace Primitive

/-- The file of the script that a primitive runs, if it runs one. -/
def scriptFile? : Primitive → Option String
  | .script file => some file
  | _ => none

/-- Only scripts see the lexis that the word comes from, and only they can fail. -/
def apply (p : Primitive) (w : Word) (source : Lexis) (scripts : Option ScriptRunner) :
    Except Fault Word :=
  match p with
  | .letterReplace old new place => .ok (w.replace old new place)
  | .letterRemove old place => .ok (w.remove old place)
  | .double letter place => .ok (w.double letter place)
  | .dedouble letter place => .ok (w.dedouble letter place)
  | .append ending => .ok (w ++ ending)
  | .prepend beginning => .ok (beginning ++ w)
  | .matchReplace old new => .ok (w.replaceMatch old new)
  | .letterArray items => .ok (w.rearrange items)
  | .loanword => .ok w
  | .script file => (ScriptRunner.apply scripts file w.text source).map Word.ofText

/-- Applies primitives in order, each to what the one before it left. -/
def applyAll (source : Lexis) (scripts : Option ScriptRunner) :
    List Primitive → Word → Except Fault Word
  | [], w => .ok w
  | p :: ps, w => do
    let w ← p.apply w source scripts
    applyAll source scripts ps w

end Primitive

end Etymology
