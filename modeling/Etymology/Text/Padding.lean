namespace Etymology.Text

inductive Alignment where
  | left
  | right
  | center
deriving DecidableEq, Inhabited

structure Padding where
  fill : Char := ' '
  alignment : Alignment := .left
  width : Nat := 0
  longest : Option Nat := none
deriving DecidableEq, Inhabited

def Alignment.ofChar? : Char → Option Alignment
  | '<' => some .left
  | '>' => some .right
  | '^' => some .center
  | _ => none

/-- The value of a run of decimal digits. -/
def digitsValue (ds : List Char) : Nat :=
  ds.foldl (fun n d => 10 * n + (d.toNat - '0'.toNat)) 0

/-- Cuts the text to the longest length and fills it up to the width. Where the filling of a
centred text cannot be halved, the larger half stands behind. -/
def Padding.apply (p : Padding) (cs : List Char) : List Char :=
  let kept := match p.longest with
    | some n => cs.take n
    | none => cs
  let missing := p.width - kept.length
  let before := match p.alignment with
    | .left => 0
    | .right => missing
    | .center => missing / 2
  List.replicate before p.fill ++ kept ++ List.replicate (missing - before) p.fill

/-- The fill character and the alignment at the start of a layout. A fill character stands only
before an alignment. -/
def Padding.alignmentOf (cs : List Char) : Padding × Bool × List Char :=
  match cs with
  | fill :: a :: rest => match Alignment.ofChar? a with
    | some alignment => ({ fill := fill, alignment := alignment }, true, rest)
    | none => match Alignment.ofChar? fill with
      | some alignment => ({ alignment := alignment }, false, a :: rest)
      | none => ({}, false, cs)
  | [a] => match Alignment.ofChar? a with
    | some alignment => ({ alignment := alignment }, false, [])
    | none => ({}, false, cs)
  | [] => ({}, false, [])

/-- Reads a layout: fill and alignment, a zero that asks for filling with zeros, a width, a
longest length behind a full stop, and the letter for text. All parts are optional. -/
def Padding.parse? (cs : List Char) : Option Padding :=
  let (p, filled, cs) := alignmentOf cs
  let (p, cs) := match filled, cs with
    | false, '0' :: rest => ({ p with fill := '0' }, rest)
    | _, cs => (p, cs)
  let p := { p with width := digitsValue (cs.takeWhile Char.isDigit) }
  let cs := cs.dropWhile Char.isDigit
  match cs with
  | [] | ['s'] => some p
  | '.' :: rest =>
    let ds := rest.takeWhile Char.isDigit
    match ds, rest.dropWhile Char.isDigit with
    | [], _ => none
    | _, [] | _, ['s'] => some { p with longest := some (digitsValue ds) }
    | _, _ => none
  | _ => none

end Etymology.Text
