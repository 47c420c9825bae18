import Etymology.Text.Padding
import Etymology.Text.Quoted

namespace Etymology.Text

inductive TemplatePiece where
  | literal (c : Char)
  | field (name : List Char) (quoting : Option Char) (layout : List Char)
deriving DecidableEq, Inhabited

namespace Template

def cons? {α : Type} (c : Char) : Option (List Char × α) → Option (List Char × α) :=
  Option.map fun r => (c :: r.1, r.2)

/-- The name of a field up to what ends it, which does so outside square brackets only. -/
def nameOf : Bool → List Char → Option (List Char × Char × List Char)
  | _, [] => none
  | true, c :: cs => cons? c (nameOf (c != ']') cs)
  | false, c :: cs =>
    if c == '\x7b' then none
    else if c == '\x7d' || c == ':' || c == '!' then some ([], c, cs)
    else cons? c (nameOf (c == '[') cs)

/-- The layout of a field up to its closing brace, with the fields nested in it. -/
def layoutOf : Nat → List Char → Option (List Char × List Char)
  | _, [] => none
  | nested, c :: cs =>
    if c == '\x7b' then cons? c (layoutOf (nested + 1) cs)
    else if c == '\x7d' then match nested with
      | 0 => some ([], cs)
      | nested + 1 => cons? c (layoutOf nested cs)
    else cons? c (layoutOf nested cs)

theorem nameOf_length {inside : Bool} {cs name rest : List Char} {c : Char}
    (run : nameOf inside cs = some (name, c, rest)) : rest.length < cs.length := by
  induction cs generalizing inside name with
  | nil => cases inside <;> simp [nameOf] at run
  | cons d cs ih =>
    cases inside with
    | true =>
      simp only [nameOf, cons?, Option.map_eq_some_iff, Prod.mk.injEq] at run
      obtain ⟨⟨n, r⟩, inner, -, rfl⟩ := run
      exact Nat.lt_succ_of_lt (ih inner)
    | false =>
      simp only [nameOf] at run
      split at run
      · cases run
      · split at run
        · cases run
          exact Nat.lt_succ_self _
        · simp only [cons?, Option.map_eq_some_iff, Prod.mk.injEq] at run
          obtain ⟨⟨n, r⟩, inner, -, rfl⟩ := run
          exact Nat.lt_succ_of_lt (ih inner)

theorem layoutOf_length {nested : Nat} {cs layout rest : List Char}
    (run : layoutOf nested cs = some (layout, rest)) : rest.length < cs.length := by
  induction cs generalizing nested layout with
  | nil => simp [layoutOf] at run
  | cons d cs ih =>
    simp only [layoutOf] at run
    split at run
    · simp only [cons?, Option.map_eq_some_iff, Prod.mk.injEq] at run
      obtain ⟨⟨n, r⟩, inner, -, rfl⟩ := run
      exact Nat.lt_succ_of_lt (ih inner)
    · split at run
      · split at run
        · cases run
          exact Nat.lt_succ_self _
        · simp only [cons?, Option.map_eq_some_iff, Prod.mk.injEq] at run
          obtain ⟨⟨n, r⟩, inner, -, rfl⟩ := run
          exact Nat.lt_succ_of_lt (ih inner)
      · simp only [cons?, Option.map_eq_some_iff, Prod.mk.injEq] at run
        obtain ⟨⟨n, r⟩, inner, -, rfl⟩ := run
        exact Nat.lt_succ_of_lt (ih inner)

/-- A field behind its opening brace, and the text behind its closing one. -/
def fieldOf? (cs : List Char) : Option (TemplatePiece × { rest : List Char // rest.length < cs.length }) :=
  match named : nameOf false cs with
  | none => none
  | some (name, '!', quoting :: ':' :: behind) =>
    match laid : layoutOf 0 behind with
    | some (layout, rest) => some (.field name (some quoting) layout, ⟨rest, by
        have := nameOf_length named
        have := layoutOf_length laid
        simp only [List.length_cons] at *
        omega⟩)
    | none => none
  | some (name, '!', quoting :: '\x7d' :: rest) => some (.field name (some quoting) [], ⟨rest, by
      have := nameOf_length named
      simp only [List.length_cons] at *
      omega⟩)
  | some (_, '!', _) => none
  | some (name, ':', behind) =>
    match laid : layoutOf 0 behind with
    | some (layout, rest) => some (.field name none layout, ⟨rest, by
        have := nameOf_length named
        have := layoutOf_length laid
        omega⟩)
    | none => none
  | some (name, _, rest) => some (.field name none [], ⟨rest, nameOf_length named⟩)

/-- The pieces of a template. A brace that neither opens a field nor is written twice is refused. -/
def pieces? : List Char → Option (List TemplatePiece)
  | [] => some []
  | '\x7b' :: '\x7b' :: cs => (pieces? cs).map (.literal '\x7b' :: ·)
  | '\x7d' :: '\x7d' :: cs => (pieces? cs).map (.literal '\x7d' :: ·)
  | '\x7d' :: _ => none
  | '\x7b' :: cs => match fieldOf? cs with
    | some (piece, ⟨rest, _shorter⟩) => (pieces? rest).map (piece :: ·)
    | none => none
  | c :: cs => (pieces? cs).map (.literal c :: ·)
termination_by cs => cs.length

/-- Follows positions in square brackets. Each leads to one character. -/
def follow? (value : List Char) : List (List Char) → Option (List Char)
  | [] => some value
  | position :: rest => match position.reverse with
    | ']' :: digits =>
      if digits.isEmpty || !digits.all Char.isDigit then none
      else match value[digitsValue digits.reverse]? with
        | some c => follow? [c] rest
        | none => none
    | _ => none

/-- Cuts the positions behind a name apart; each piece ends with its closing bracket. -/
def positions : List Char → List (List Char)
  | [] => []
  | ']' :: '[' :: cs => [']'] :: positions cs
  | c :: cs => match positions cs with
    | p :: ps => (c :: p) :: ps
    | [] => [[c]]

def valueOf? (fields : List (String × String)) (name : List Char) : Option (List Char) :=
  let key := name.takeWhile fun c => c != '.' && c != '['
  match fields.lookup (String.ofList key), name.drop key.length with
  | some value, [] => some value.toList
  | some value, '[' :: rest => follow? value.toList (positions rest)
  | _, _ => none

/-- Quoted text in which every character beyond ASCII is named by its code point. -/
def quotedAscii (cs : List Char) : List Char :=
  (quotedChars cs).flatMap fun c =>
    if c.toNat < 0x80 then [c]
    else if c.toNat < 0x100 then '\\' :: 'x' :: hexDigits 2 c.toNat
    else if c.toNat < 0x10000 then '\\' :: 'u' :: hexDigits 4 c.toNat
    else '\\' :: 'U' :: hexDigits 8 c.toNat

def quoteAs? (quoting : Option Char) (cs : List Char) : Option (List Char) :=
  match quoting with
  | none => some cs
  | some 's' => some cs
  | some 'r' => some (quotedChars cs)
  | some 'a' => some (quotedAscii cs)
  | some _ => none

/-- Fills a template whose layouts may hold fields of their own, down to a depth. -/
def fillChars? (fields : List (String × String)) : Nat → List Char → Option (List Char)
  | 0, _ => none
  | depth + 1, cs => do
    let filled ← (← pieces? cs).mapM fun piece => match piece with
      | .literal c => some [c]
      | .field name quoting layout => do
        let value ← quoteAs? quoting (← valueOf? fields name)
        let layout ← if layout.contains '\x7b' then fillChars? fields depth layout else some layout
        return (← Padding.parse? layout).apply value
    return filled.flatten

end Template

/-- Puts the values of the fields into a template. Gives nothing where the template is malformed,
asks for an unknown field, or for a layout that text does not have. -/
def fillTemplate? (template : String) (fields : List (String × String)) : Option String :=
  (Template.fillChars? fields 2 template.toList).map String.ofList

end Etymology.Text
