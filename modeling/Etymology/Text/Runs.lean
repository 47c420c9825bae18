import Etymology.Text.Lowercase

namespace Etymology.Text

/-- The maximal stretches of characters outside `sep`, in order; none of them is empty. -/
def runs (sep : Char → Bool) : List Char → List (List Char)
  | [] => []
  | c :: cs =>
    if sep c then runs sep cs
    else match cs with
      | [] => [[c]]
      | d :: _ =>
        if sep d then [c] :: runs sep cs
        else match runs sep cs with
          | r :: rs => (c :: r) :: rs
          | [] => [[c]]

/-- The text with one `fill` for every stretch of separators. Where `inside` is true the text goes
on in a stretch that has its `fill` already. -/
def collapse (sep : Char → Bool) (fill : Char) (inside : Bool) : List Char → List Char
  | [] => []
  | c :: cs =>
    if sep c then
      if inside then collapse sep fill true cs else fill :: collapse sep fill true cs
    else c :: collapse sep fill false cs

/-- A text without the separators at its two ends. -/
def stripped (sep : Char → Bool) (cs : List Char) : List Char :=
  ((cs.dropWhile sep).reverse.dropWhile sep).reverse

/-- Closed ranges of code points, ascending and apart: the white space of Unicode 14 together
with the four information separators U+001C to U+001F. -/
def blankRanges : List (Nat × Nat) :=
  [(0x09, 0x0D), (0x1C, 0x20), (0x85, 0x85), (0xA0, 0xA0), (0x1680, 0x1680), (0x2000, 0x200A),
   (0x2028, 0x2029), (0x202F, 0x202F), (0x205F, 0x205F), (0x3000, 0x3000)]

def isBlank (c : Char) : Bool :=
  blankRanges.any fun r => decide (r.1 ≤ c.toNat) && decide (c.toNat ≤ r.2)

/-- A text without the blanks at its two ends. -/
def trim (cs : List Char) : List Char :=
  stripped isBlank cs

/-- The tokens of a text: its runs of characters that are not blank. -/
def tokens (cs : List Char) : List (List Char) :=
  runs isBlank cs

/-- A character that may stand in a slug: a digit or a small ASCII letter. -/
def isSlugChar (c : Char) : Bool :=
  (decide ('0' ≤ c) && decide (c ≤ '9')) || (decide ('a' ≤ c) && decide (c ≤ 'z'))

/-- A character that a slug has a hyphen for. -/
def isSlugGap (c : Char) : Bool :=
  !isSlugChar c

/-- The lowercase text with a hyphen for every stretch of other characters, except at its ends. A
text without any slug character still gets a slug, so that ids made from it do not end in a bare
hyphen. -/
def slug (s : String) : String :=
  match stripped (· == '-') (collapse isSlugGap '-' false (s.toList.flatMap lower)) with
  | [] => "lang"
  | cs => String.ofList cs

end Etymology.Text
