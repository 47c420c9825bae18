import Etymology.Graph.Basic
import Etymology.Phonology.Basic

namespace Etymology

structure Picks where
  cycle : List Nat := [0]
  used : Nat := 0
deriving DecidableEq, Inhabited

namespace Picks

/-- The number that the next choice goes by. An empty cycle stands for a cycle of zeros. -/
def next (p : Picks) : Nat :=
  p.cycle[p.used % p.cycle.length]?.getD 0

/-- Picks a member of a list and counts the choice, also where there is only one member. Nothing
can be picked from an empty list. -/
def choose? {α : Type} (p : Picks) (l : List α) : Option (α × Picks) :=
  l[p.next % l.length]?.map fun a => (a, { p with used := p.used + 1 })

theorem mem_of_choose? {α : Type} {p q : Picks} {l : List α} {a : α}
    (picked : p.choose? l = some (a, q)) : a ∈ l := by
  simp only [choose?, Option.map_eq_some_iff, Prod.mk.injEq] at picked
  obtain ⟨b, found, rfl, -⟩ := picked
  exact List.mem_of_getElem? found

end Picks

structure Generator where
  phonology : Phonology
  /-- How deep groups may be nested in one another. -/
  limit : Int := 32
deriving Inhabited

namespace Phonology

/-- The length of the longest alternative of any group. -/
def widest (p : Phonology) : Nat :=
  (p.groups.values.flatten.map List.length).foldr max 0

theorem length_le_foldr_max {ls : List (List PatternItem)} {l : List PatternItem} (member : l ∈ ls) :
    l.length ≤ (ls.map List.length).foldr max 0 := by
  induction ls with
  | nil => simp at member
  | cons k ls ih =>
    simp only [List.map_cons, List.foldr_cons]
    rcases List.mem_cons.1 member with rfl | later
    · omega
    · have := ih later
      omega

theorem length_le_widest {p : Phonology} {symbol : String} {alternatives : List Pattern} {a : Pattern}
    (found : p.groups.get? symbol = some alternatives) (member : a ∈ alternatives) :
    a.length ≤ p.widest := by
  refine length_le_foldr_max (List.mem_flatten.2 ⟨alternatives, ?_, member⟩)
  simp only [Table.get?, List.lookup_eq_some_iff] at found
  obtain ⟨before, after, split, -⟩ := found
  simp [Table.values, split]

end Phonology

/-- What an item weighs in a pattern inside of which so many further patterns have room. -/
def itemWeight (base : Nat) : Nat → Nat
  | 0 => 1
  | room + 1 => itemWeight base room * base

theorem itemWeight_pos {base : Nat} (positive : 0 < base) (room : Nat) : 0 < itemWeight base room := by
  induction room with
  | zero => exact Nat.one_pos
  | succ room ih => exact Nat.mul_pos ih positive

/-- What is left of the patterns in progress, the innermost first. An item of an outer pattern
weighs more than a whole expansion of it. -/
def stackWeight (base height : Nat) : List Pattern → Nat
  | [] => 0
  | pattern :: outer =>
    (pattern.length + 1) * itemWeight base (height - outer.length) + stackWeight base height outer

theorem stackWeight_enter {base height : Nat} {alternative : Pattern} (pattern : Pattern)
    {outer : List Pattern}
    (low : outer.length + 1 ≤ height) (short : alternative.length + 1 < base) :
    stackWeight base height (alternative :: pattern :: outer) <
      (pattern.length + 2) * itemWeight base (height - outer.length) + stackWeight base height outer := by
  obtain ⟨room, here⟩ : ∃ room, height - outer.length = room + 1 :=
    ⟨height - outer.length - 1, by omega⟩
  have inside : height - (pattern :: outer).length = room := by
    simp only [List.length_cons]
    omega
  have fits : (alternative.length + 1) * itemWeight base room < itemWeight base (room + 1) := by
    rw [itemWeight, Nat.mul_comm]
    exact Nat.mul_lt_mul_of_pos_left short (itemWeight_pos (by omega) room)
  simp only [stackWeight, inside, here, Nat.add_mul] at *
  omega

namespace Generator

/-- Expands the patterns in progress, the innermost first, behind the letters found so far. Where
more patterns are in progress than the limit admits, no further group is entered. -/
def expand (g : Generator) (picks : Picks) (letters : List String) :
    List Pattern → Except Fault (List String) × Picks
  | [] => (.ok letters, picks)
  | [] :: outer => g.expand picks letters outer
  | (.phoneme text :: pattern) :: outer => g.expand picks (letters ++ [text]) (pattern :: outer)
  | (.group symbol :: pattern) :: outer =>
    match _found : g.phonology.groups.get? symbol with
    | none => (.error (.unknownSymbol (.text symbol) .group), picks)
    | some alternatives =>
      if alternatives.isEmpty then (.error (.unknownSymbol (.text symbol) .group), picks)
      else if g.limit < (outer.length + 1 : Int) then (.error (.tooDeep symbol g.limit), picks)
      else match _picked : picks.choose? alternatives with
        | none => (.error (.unknownSymbol (.text symbol) .group), picks)
        | some (alternative, picks) => g.expand picks letters (alternative :: pattern :: outer)
termination_by stack => stackWeight (g.phonology.widest + 2) g.limit.toNat stack
decreasing_by
  · have : 0 < itemWeight (g.phonology.widest + 2) (g.limit.toNat - outer.length) :=
      itemWeight_pos (by omega) _
    simp only [stackWeight, List.length_nil]
    omega
  · have : 0 < itemWeight (g.phonology.widest + 2) (g.limit.toNat - outer.length) :=
      itemWeight_pos (by omega) _
    simp only [stackWeight, List.length_cons, Nat.add_mul]
    omega
  · next _ low =>
    have short := Phonology.length_le_widest _found (Picks.mem_of_choose? _picked)
    simpa only [stackWeight, List.length_cons] using
      stackWeight_enter pattern (by omega) (by omega)

def shapes? (g : Generator) (key : String) : Option (List Pattern) :=
  g.phonology.lexisTypes.get? key

/-- Generates one word of the type that a key names. -/
def createWord (g : Generator) (key : String) (picks : Picks) : Except Fault Word × Picks :=
  match (g.shapes? key).bind picks.choose? with
  | none => (.error (.unknownSymbol (.text key) .key), picks)
  | some (shape, picks) => match g.expand picks [] [shape] with
    | (.ok letters, picks) => (.ok ⟨letters⟩, picks)
    | (.error fault, picks) => (.error fault, picks)

/-- The key of a lexis need not be text. A scalar of another kind names no type, and a list or
mapping cannot be a key at all. -/
def createWordFor (g : Generator) (key : Value) (picks : Picks) : Except Fault Word × Picks :=
  match key with
  | .scalar (.text s) => g.createWord s picks
  | .scalar s => (.error (.unknownKey (.scalar s)), picks)
  | _ => (.error .unsuitable, picks)

end Generator

/-- The lexes whose words come from phonetic rules are taken in the order of the list. -/
def Graph.seedEach (generator : Generator) : List Lexis → Graph → Picks → Except Fault Graph × Picks
  | [], g, picks => (.ok g, picks)
  | x :: xs, g, picks =>
    if x.isGenerated then
      match generator.createWordFor x.generate picks with
      | (.ok w, picks) => Graph.seedEach generator xs (g.set (x.withWord w)) picks
      | (.error fault, picks) => (.error fault, picks)
    else Graph.seedEach generator xs g picks

/-- The graph with a word in the place of each key that would generate one. -/
def Graph.seed (g : Graph) (generator : Generator) (picks : Picks) : Except Fault Graph × Picks :=
  Graph.seedEach generator g.nodes g picks

end Etymology
