import Etymology.Letters.Word

namespace Etymology

/-- The stretches of letters around the occurrences of `old` in a word. An occurrence is looked for
from the left, and the next one no earlier than behind the last letter of the one before. While
`skip` is positive the letters belong to the occurrence just found. -/
def gaps (old : List String) : Nat → List String → List (List String)
  | _, [] => [[]]
  | skip + 1, _ :: w => gaps old skip w
  | 0, c :: w =>
    if old.isPrefixOf (c :: w) then [] :: gaps old (old.length - 1) w
    else match gaps old 0 w with
      | g :: gs => (c :: g) :: gs
      | [] => [[c]]

/-- Joins stretches with `new` at the first place and `old` at the others. -/
def joinFirst (old new : List String) : List (List String) → List String
  | g :: h :: gs => g ++ new ++ old.intercalate (h :: gs)
  | gs => gs.flatten

/-- Joins stretches with `new` at the last place and `old` at the others. -/
def joinLast (old new : List String) : List (List String) → List String
  | [g, h] => g ++ new ++ h
  | g :: gs => g ++ (if gs.isEmpty then [] else old) ++ joinLast old new gs
  | [] => []

def doubleFirst (l : String) : List String → List String
  | [] => []
  | c :: w => if c = l then c :: c :: w else c :: doubleFirst l w

def doubleAll (l : String) : List String → List String
  | [] => []
  | c :: w => if c = l then c :: c :: doubleAll l w else c :: doubleAll l w

def dedoubleFirst (l : String) : List String → List String
  | a :: b :: w => if a = l ∧ b = l then b :: w else a :: dedoubleFirst l (b :: w)
  | w => w

def dedoubleAll (l : String) : List String → List String
  | a :: b :: w => if a = l ∧ b = l then dedoubleAll l (b :: w) else a :: dedoubleAll l (b :: w)
  | w => w

/-- An entry of a new arrangement: the letter at a position of the old word, or letters given
as text. -/
inductive Arranged where
  | position (n : Int)
  | text (s : String)
deriving DecidableEq, Inhabited

namespace Word

/-- Nothing is an occurrence of the empty sequence. -/
def replace (w old new : Word) (place : Place) : Word :=
  if old.isEmpty then w
  else
    let parts := gaps old.letters 0 w.letters
    match place with
    | .first => ⟨joinFirst old.letters new.letters parts⟩
    | .last => ⟨joinLast old.letters new.letters parts⟩
    | .all => ⟨new.letters.intercalate parts⟩

def remove (w old : Word) (place : Place) : Word :=
  w.replace old empty place

def double (w : Word) (l : String) : Place → Word
  | .first => ⟨doubleFirst l w.letters⟩
  | .last => ⟨(doubleFirst l w.letters.reverse).reverse⟩
  | .all => ⟨doubleAll l w.letters⟩

/-- A letter that never stands twice in a row leaves the word as it is. -/
def dedouble (w : Word) (l : String) : Place → Word
  | .first => ⟨dedoubleFirst l w.letters⟩
  | .last => ⟨(dedoubleFirst l w.letters.reverse).reverse⟩
  | .all => ⟨dedoubleAll l w.letters⟩

def replaceMatch (w old new : Word) : Word :=
  w.replace old new .first

/-- A position outside the word stands for no letter. -/
def arrangedLetters (w : Word) : Arranged → List String
  | .position (.ofNat n) => w.letters[n]?.toList
  | .position (.negSucc _) => []
  | .text s => splitLetters s

def rearrange (w : Word) (items : List Arranged) : Word :=
  ⟨items.flatMap w.arrangedLetters⟩

end Word

end Etymology
