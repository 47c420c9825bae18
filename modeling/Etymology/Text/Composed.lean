import Etymology.Text.Canonical
import Etymology.Text.Combining

namespace Etymology.Text

/-- Puts a mark into its place among marks in canonical order, behind those of its own class. -/
def insertMark (mark : Char) : List Char → List Char
  | [] => [mark]
  | m :: marks =>
    if combiningClass m ≤ combiningClass mark then m :: insertMark mark marks else mark :: m :: marks

/-- A starter, if there is one yet, with the marks that follow it. -/
structure Cluster where
  starter : Option Char := none
  marks : List Char := []

def Cluster.chars (k : Cluster) : List Char :=
  k.starter.toList ++ k.marks

/-- Canonical order: the marks after each starter sorted by class, ties in the order of the text. -/
def reorderFrom (cluster : Cluster) : List Char → List Char
  | [] => cluster.chars
  | c :: cs =>
    if combiningClass c == 0 then cluster.chars ++ reorderFrom ⟨some c, []⟩ cs
    else reorderFrom { cluster with marks := insertMark c cluster.marks } cs

/-- A character composes with the starter unless a mark of its class or a higher one stands
between the two. -/
def reaches (marks : List Char) (c : Char) : Bool :=
  match marks.getLast? with
  | none => true
  | some m => decide (combiningClass m < combiningClass c)

def recomposeFrom (cluster : Cluster) : List Char → List Char
  | [] => cluster.chars
  | c :: cs =>
    match cluster.starter.bind fun s => if reaches cluster.marks c then composePair? s c else none with
    | some whole => recomposeFrom { cluster with starter := some whole } cs
    | none =>
      if combiningClass c == 0 then cluster.chars ++ recomposeFrom ⟨some c, []⟩ cs
      else recomposeFrom { cluster with marks := cluster.marks ++ [c] } cs

/-- Characters below U+0300 neither decompose into anything but their own composition nor combine
with one another, so a text of them alone is its own composed form. -/
def composed (cs : List Char) : List Char :=
  if cs.all fun c => decide (c.toNat < 0x300) then cs
  else recomposeFrom {} (reorderFrom {} (cs.flatMap decompose))

end Etymology.Text
