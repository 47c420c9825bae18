import Etymology.Proofs.Phonology.Chances
import Etymology.Proofs.Phonology.Check

namespace Etymology

/-- The items of a pattern in their order, each group with the tree of the pattern that replaces it. -/
inductive Expansion where
  | nil
  | phoneme (text : String) (rest : Expansion)
  | group (symbol : String) (inner rest : Expansion)
deriving DecidableEq, Inhabited

namespace Expansion

/-- The pattern at the root. -/
def pattern : Expansion → Pattern
  | nil => []
  | phoneme text rest => .phoneme text :: rest.pattern
  | group symbol _ rest => .group symbol :: rest.pattern

/-- The phonemes from left to right. -/
def letters : Expansion → List String
  | nil => []
  | phoneme text rest => text :: rest.letters
  | group _ inner rest => inner.letters ++ rest.letters

/-- How deep groups are nested in one another. -/
def depth : Expansion → Nat
  | nil => 0
  | phoneme _ rest => rest.depth
  | group _ inner rest => max (inner.depth + 1) rest.depth

/-- Every group is replaced by one of its alternatives. -/
def Obeys (p : Phonology) : Expansion → Prop
  | nil => True
  | phoneme _ rest => rest.Obeys p
  | group symbol inner rest =>
    (∃ alternatives, p.groups.get? symbol = some alternatives ∧ inner.pattern ∈ alternatives) ∧
      inner.Obeys p ∧ rest.Obeys p

/-- The part of a tree to the left of a group. -/
theorem exists_left {p : Phonology} {t : Expansion} {symbol : String} (obeys : t.Obeys p)
    (member : .group symbol ∈ t.pattern) :
    ∃ left : Expansion, ∃ right, t.pattern = left.pattern ++ .group symbol :: right ∧ left.Obeys p ∧
      left.depth ≤ t.depth := by
  induction t with
  | nil => cases member
  | phoneme text rest ih =>
    have later : .group symbol ∈ rest.pattern := by simpa [pattern] using member
    obtain ⟨left, right, split, obeysLeft, shallow⟩ := ih obeys later
    exact ⟨.phoneme text left, right, by simp [pattern, split], obeysLeft, shallow⟩
  | group other inner rest _ ih =>
    obtain ⟨replaced, obeysInner, obeysRest⟩ := obeys
    rcases List.mem_cons.mp member with here | later
    · cases here
      exact ⟨.nil, rest.pattern, rfl, trivial, Nat.zero_le _⟩
    · obtain ⟨left, right, split, obeysLeft, shallow⟩ := ih obeysRest later
      refine ⟨.group other inner left, right, by simp [pattern, split], ⟨replaced, obeysInner, obeysLeft⟩, ?_⟩
      simp only [depth]
      omega

end Expansion

namespace Phonology

/-- An alternative of the first group refers to the second. -/
def RefersTo (p : Phonology) (a b : String) : Prop :=
  ∃ alternatives, p.groups.get? a = some alternatives ∧ ∃ pattern ∈ alternatives, .group b ∈ pattern

/-- Groups that refer to one another, the last first: the shape refers to the one at the end, and each
group to the one before it. -/
inductive ReferenceChain (p : Phonology) (shape : Pattern) : List String → Prop
  | first {a} : .group a ∈ shape → ReferenceChain p shape [a]
  | next {a b chain} : ReferenceChain p shape (a :: chain) → p.RefersTo a b →
      ReferenceChain p shape (b :: a :: chain)

/-- The check leaves no finding on groups to be made. -/
theorem undeclaredGroups_of_check {p : Phonology} (complete : p.check = .ok ()) : p.undeclaredGroups = [] :=
  check_eq_ok_iff.mp complete

end Phonology

namespace Generator

/-- Trees for the patterns in progress, the innermost first, and what they spell together. The more
patterns are in progress around a tree, the less deep it may be. -/
inductive Spells (g : Generator) : List Pattern → List String → Prop
  | nil : Spells g [] []
  | cons {t : Expansion} {outer letters} : t.Obeys g.phonology → t.depth + outer.length ≤ g.limit →
      Spells g outer letters → Spells g (t.pattern :: outer) (t.letters ++ letters)

section Grammar

variable {g : Generator} {letters spoken : List String} {stack outer : List Pattern}

/-- A word is spelled by the trees of the choices made. -/
theorem May.spells {r : Except Fault (List String)} (may : g.May letters stack r) (said : r = .ok spoken)
    (low : stack.length ≤ g.limit + 1) : ∃ rest, spoken = letters ++ rest ∧ g.Spells stack rest := by
  induction may with
  | done =>
    cases said
    exact ⟨[], (List.append_nil _).symm, .nil⟩
  | @leave letters outer r _ ih =>
    rw [List.length_cons] at low
    obtain ⟨rest, rfl, spells⟩ := ih said (by omega)
    refine ⟨rest, rfl, .cons (t := .nil) trivial ?_ spells⟩
    simp only [Expansion.depth]
    omega
  | phoneme _ ih =>
    obtain ⟨_, rfl, spells⟩ := ih said low
    cases spells with
    | @cons t _ more obeys fits spells =>
      exact ⟨_, List.append_assoc _ _ _, .cons (t := .phoneme _ t) obeys fits spells⟩
  | undeclared => cases said
  | tooDeep => cases said
  | @enter letters symbol pattern outer alternatives alternative r found deeper member _ ih =>
    obtain ⟨_, rfl, spells⟩ := ih said (by simp only [List.length_cons]; omega)
    cases spells with
    | @cons inner _ _ obeysInner fitsInner spells =>
      cases spells with
      | @cons t _ more obeys fits spells =>
        have whole : g.Spells ((Expansion.group symbol inner t).pattern :: outer)
            ((Expansion.group symbol inner t).letters ++ more) := by
          refine .cons ⟨⟨alternatives, found, member⟩, obeysInner, obeys⟩ ?_ spells
          simp only [Expansion.depth, List.length_cons] at fitsInner ⊢
          omega
        exact ⟨_, by simp [Expansion.letters, List.append_assoc], whole⟩

/-- The choices that a tree stands for lead past the front of a pattern. -/
theorem May.of_expansion {t : Expansion} {pattern : Pattern} {r : Except Fault (List String)}
    (obeys : t.Obeys g.phonology) (fits : t.depth + outer.length ≤ g.limit)
    (may : g.May (letters ++ t.letters) (pattern :: outer) r) :
    g.May letters ((t.pattern ++ pattern) :: outer) r := by
  induction t generalizing letters pattern outer with
  | nil => simpa [Expansion.letters, Expansion.pattern] using may
  | phoneme text rest ih =>
    refine .phoneme (ih obeys fits ?_)
    simpa [Expansion.letters] using may
  | group symbol inner rest ihInner ih =>
    obtain ⟨⟨alternatives, found, member⟩, obeysInner, obeysRest⟩ := obeys
    simp only [Expansion.depth] at fits
    have past : g.May (letters ++ inner.letters) ((rest.pattern ++ pattern) :: outer) r := by
      refine ih obeysRest (by omega) ?_
      simpa [Expansion.letters] using may
    have inside : g.May letters ((inner.pattern ++ []) :: (rest.pattern ++ pattern) :: outer) r := by
      refine ihInner obeysInner ?_ (.leave past)
      simp only [List.length_cons]
      omega
    rw [List.append_nil] at inside
    exact .enter found (by omega) member inside

/-- A shape may come to the letters of its trees, and to no others. -/
theorem may_shape_iff {limit : Nat} (bounded : g.limit = limit) {shape : Pattern} :
    g.May [] [shape] (.ok spoken) ↔
      ∃ t : Expansion, t.pattern = shape ∧ t.Obeys g.phonology ∧ t.depth ≤ limit ∧ t.letters = spoken := by
  constructor
  · intro may
    obtain ⟨rest, rfl, spells⟩ := may.spells rfl (by simp only [bounded, List.length_singleton]; omega)
    cases spells with
    | @cons t _ _ obeys fits spells =>
      cases spells
      refine ⟨t, rfl, obeys, ?_, by simp⟩
      simpa [bounded] using fits
  · rintro ⟨t, rfl, obeys, shallow, rfl⟩
    have past : g.May ([] ++ t.letters) [[]] (.ok t.letters) := .leave .done
    have may := past.of_expansion obeys (by simpa [bounded] using shallow)
    rwa [List.append_nil] at may

/-- Every reference in the patterns in progress ends a chain that is as long as they are many. -/
def Traced (g : Generator) (shape : Pattern) : List Pattern → Prop
  | [] => True
  | pattern :: outer =>
    (∀ symbol, .group symbol ∈ pattern →
      ∃ chain, g.phonology.ReferenceChain shape (symbol :: chain) ∧ chain.length = outer.length) ∧
      g.Traced shape outer

/-- An expansion that goes too deep has followed a chain beyond the limit. -/
theorem May.exists_chain {shape : Pattern} {r : Except Fault (List String)} {symbol : String} {limit : Int}
    (may : g.May letters stack r) (failed : r = .error (.tooDeep symbol limit))
    (traced : g.Traced shape stack) :
    ∃ chain, g.phonology.ReferenceChain shape chain ∧ g.limit < chain.length := by
  induction may with
  | done => cases failed
  | leave _ ih => exact ih failed traced.2
  | phoneme _ ih =>
    exact ih failed ⟨fun other member => traced.1 other (List.mem_cons_of_mem _ member), traced.2⟩
  | undeclared => cases failed
  | @tooDeep letters deep pattern outer alternatives found filled high =>
    obtain ⟨chain, leads, long⟩ := traced.1 deep List.mem_cons_self
    refine ⟨deep :: chain, leads, ?_⟩
    rw [List.length_cons, long]
    exact_mod_cast high
  | @enter letters entered pattern outer alternatives alternative r found _ member _ ih =>
    refine ih failed ⟨fun other inside => ?_, fun other later => ?_, traced.2⟩
    · obtain ⟨chain, leads, long⟩ := traced.1 entered List.mem_cons_self
      exact ⟨entered :: chain, leads.next ⟨alternatives, found, alternative, member, inside⟩, by simp [long]⟩
    · exact traced.1 other (List.mem_cons_of_mem _ later)

/-- A group in a pattern can be come to, unless something before it fails. -/
theorem may_fail_or_reach (letters : List String) {pattern : Pattern} {symbol : String} (member : .group symbol ∈ pattern)
    (low : outer.length ≤ g.limit) :
    (∃ fault, g.May letters (pattern :: outer) (.error fault)) ∨
      ∃ said right, ∀ r, g.May said ((.group symbol :: right) :: outer) r →
        g.May letters (pattern :: outer) r := by
  -- Any run tells which of the two it is, the one with the first alternative everywhere for instance.
  have may := g.may_expand {} letters (pattern :: outer)
  cases run : (g.expand {} letters (pattern :: outer)).1 with
  | error fault =>
    rw [run] at may
    exact .inl ⟨fault, may⟩
  | ok spoken =>
    rw [run] at may
    obtain ⟨_, -, spells⟩ := may.spells rfl (by simpa using low)
    cases spells with
    | @cons t _ _ obeys fits spells =>
      obtain ⟨left, right, split, obeysLeft, shallow⟩ := t.exists_left obeys member
      refine .inr ⟨letters ++ left.letters, right, fun r further => ?_⟩
      rw [split]
      exact further.of_expansion obeysLeft (by omega)

/-- Where no further group may be entered, a group fails. -/
theorem may_fail_of_high (letters : List String) (symbol : String) (pattern : Pattern)
    (high : g.limit < outer.length + 1) :
    ∃ fault, g.May letters ((.group symbol :: pattern) :: outer) (.error fault) := by
  cases found : g.phonology.groups.get? symbol with
  | none => exact ⟨_, .undeclared fun others known => by simp [found] at known⟩
  | some alternatives =>
    by_cases empty : alternatives = []
    · refine ⟨_, .undeclared fun others known => ?_⟩
      exact Option.some.inj (found.symm.trans known) ▸ empty
    · exact ⟨_, .tooDeep found empty high⟩

/-- Following a chain of references comes to the last of them, unless something fails before. -/
theorem may_fail_or_reach_chain {shape : Pattern} (positive : 0 ≤ g.limit) {symbol : String}
    {chain : List String} (leads : g.phonology.ReferenceChain shape (symbol :: chain)) :
    (∃ fault, g.May [] [shape] (.error fault)) ∨
      ∃ said right outer, outer.length = chain.length ∧
        ∀ r, g.May said ((.group symbol :: right) :: outer) r → g.May [] [shape] r := by
  generalize whole : symbol :: chain = symbols at leads
  induction leads generalizing symbol chain with
  | first member =>
    cases whole
    refine (may_fail_or_reach [] member (by simpa using positive)).imp_right ?_
    rintro ⟨said, right, back⟩
    exact ⟨said, right, [], rfl, back⟩
  | @next a b chain _ refers ih =>
    cases whole
    rcases ih rfl with fails | ⟨said, right, outer, long, back⟩
    · exact .inl fails
    · by_cases high : g.limit < outer.length + 1
      · obtain ⟨fault, fails⟩ := may_fail_of_high said a right high
        exact .inl ⟨fault, back _ fails⟩
      · obtain ⟨alternatives, found, alternative, member, inside⟩ := refers
        have enter : ∀ r, g.May said (alternative :: right :: outer) r → g.May [] [shape] r :=
          fun r may => back r (.enter found (Int.not_lt.mp high) member may)
        have low : ((right :: outer).length : Int) ≤ g.limit := by
          rw [List.length_cons]
          exact_mod_cast Int.not_lt.mp high
        rcases may_fail_or_reach said inside low with ⟨fault, fails⟩ | ⟨said', right', back'⟩
        · exact .inl ⟨fault, enter _ fails⟩
        · exact .inr ⟨said', right', right :: outer, by simp [long], fun r may => enter r (back' r may)⟩

/-- A shape may fail where a chain of references from it is longer than the limit. -/
theorem may_fail_of_chain {shape : Pattern} {chain : List String} (positive : 0 ≤ g.limit)
    (leads : g.phonology.ReferenceChain shape chain) (long : g.limit < chain.length) :
    ∃ fault, g.May [] [shape] (.error fault) := by
  obtain ⟨symbol, rest, rfl⟩ : ∃ symbol rest, chain = symbol :: rest := by
    cases leads with
    | first => exact ⟨_, _, rfl⟩
    | next => exact ⟨_, _, rfl⟩
  rcases may_fail_or_reach_chain positive leads with fails | ⟨said, right, outer, same, back⟩
  · exact fails
  · rw [List.length_cons, ← same] at long
    obtain ⟨fault, fails⟩ := may_fail_of_high said symbol right (by exact_mod_cast long)
    exact ⟨fault, back _ fails⟩

end Grammar

section Declared

variable {g : Generator} {key : String} {shapes : List Pattern} {limit : Nat}

/-- A key that is declared gives the words that the trees of its shapes spell, and no others. -/
theorem gives_word_iff (found : g.shapes? key = some shapes) (filled : shapes ≠ []) (bounded : g.limit = limit)
    (letters : List String) :
    g.Gives key (.ok ⟨letters⟩) ↔
      ∃ t : Expansion, t.pattern ∈ shapes ∧ t.Obeys g.phonology ∧ t.depth ≤ limit ∧ t.letters = letters := by
  rw [gives_iff found filled]
  constructor
  · rintro ⟨shape, member, s, may, same⟩
    cases s with
    | error fault => cases same
    | ok spoken =>
      cases same
      obtain ⟨t, rfl, obeys⟩ := (may_shape_iff bounded).mp may
      exact ⟨t, member, obeys⟩
  · rintro ⟨t, member, obeys⟩
    exact ⟨_, member, .ok letters, (may_shape_iff bounded).mpr ⟨t, rfl, obeys⟩, rfl⟩

/-- A key that goes too deep has a shape from which references follow one another beyond the limit. -/
theorem exists_chain_of_gives (found : g.shapes? key = some shapes) (filled : shapes ≠ []) {symbol : String}
    {most : Int} (given : g.Gives key (.error (.tooDeep symbol most))) :
    ∃ shape ∈ shapes, ∃ chain, g.phonology.ReferenceChain shape chain ∧ g.limit < chain.length := by
  obtain ⟨shape, member, s, may, same⟩ := (gives_iff found filled _).mp given
  cases s with
  | ok spoken => cases same
  | error cause =>
    cases same
    have traced : g.Traced shape [shape] := ⟨fun symbol inside => ⟨[], .first inside, rfl⟩, trivial⟩
    exact ⟨shape, member, may.exists_chain rfl traced⟩

end Declared

/-- For some choices a key that is declared gives a word if a tree of one of its shapes spells it, no
deeper than the limit, and only then; and for some choices it fails if references from one of its shapes
follow one another beyond the limit, and only then. The fault names the limit. Earlier choices do not
matter for what may come. -/
theorem gives_grammar {p : Phonology} (built : p.Built) (complete : p.check = .ok ()) {key : String}
    {shapes : List Pattern} (found : p.lexisTypes.get? key = some shapes) (limit : Nat) :
    let g : Generator := { phonology := p, limit := limit }
    (∀ letters, g.Gives key (.ok ⟨letters⟩) ↔
        ∃ t : Expansion, t.pattern ∈ shapes ∧ t.Obeys p ∧ t.depth ≤ limit ∧ t.letters = letters) ∧
      ((∃ fault, g.Gives key (.error fault)) ↔
        ∃ shape ∈ shapes, ∃ chain, p.ReferenceChain shape chain ∧ limit < chain.length) ∧
      (∀ fault, g.Gives key (.error fault) → ∃ symbol, fault = .tooDeep symbol limit) ∧
      ∀ picks, g.Gives key (g.createWord key picks).1 := by
  intro g
  have closed : g.phonology.Closed := built.closed (Phonology.undeclaredGroups_of_check complete)
  have declared : g.shapes? key = some shapes := found
  have filled : shapes ≠ [] := (closed.lexisTypes found).1
  have deep : ∀ fault, g.Gives key (.error fault) → ∃ symbol, fault = .tooDeep symbol limit := by
    rintro fault ⟨cycle, failed⟩
    exact createWord_error closed (Table.contains_of_get? found) failed
  refine ⟨gives_word_iff declared filled rfl, ⟨?_, ?_⟩, deep, fun picks => ?_⟩
  · rintro ⟨fault, given⟩
    obtain ⟨symbol, rfl⟩ := deep fault given
    obtain ⟨shape, member, chain, leads, long⟩ := exists_chain_of_gives declared filled given
    exact ⟨shape, member, chain, leads, Int.ofNat_lt.mp long⟩
  · rintro ⟨shape, member, chain, leads, long⟩
    obtain ⟨fault, may⟩ := may_fail_of_chain (g := g) (Int.natCast_nonneg limit) leads (Int.ofNat_lt.mpr long)
    exact ⟨fault, gives_of_may declared member may⟩
  · exact (gives_iff declared filled _).mpr (exists_may_of_createWord declared filled picks)

/-- Stems of one syllable or more, which the grammar does not bound. -/
def stems : Phonology where
  groups := ⟨[
    ("C", [[.phoneme "t"]]),
    ("S", [[.group "C", .phoneme "a"], [.group "C", .phoneme "a", .group "S"]])], by decide⟩
  lexisTypes := ⟨[("root", [[.group "S"]])], by decide⟩

theorem stems_built : stems.Built :=
  .read (v := .mapping [
    (.text "groups", .mapping [(.text "C", .text "t"), (.text "S", .list [.text "Ca", .text "CaS"])]),
    (.text "lexis_types", .mapping [(.text "root", .text "S")])]) rfl

/-- With three levels a stem has two syllables at most; a third one would go too deep. -/
theorem stems_grammar :
    stems.Built ∧ stems.check = .ok () ∧ stems.lexisTypes.get? "root" = some [[.group "S"]] ∧
      Gives { phonology := stems, limit := 3 } "root" (.ok ⟨["t", "a", "t", "a"]⟩) ∧
      ∃ symbol, Gives { phonology := stems, limit := 3 } "root" (.error (.tooDeep symbol 3)) := by
  have complete : stems.check = .ok () := rfl
  have found : stems.lexisTypes.get? "root" = some [[.group "S"]] := rfl
  obtain ⟨words, failures, fault, -⟩ := gives_grammar stems_built complete found 3
  refine ⟨stems_built, complete, found, (words _).mpr ⟨.group "S" (.group "C" (.phoneme "t" .nil)
    (.phoneme "a" (.group "S" (.group "C" (.phoneme "t" .nil) (.phoneme "a" .nil)) .nil))) .nil, ?_⟩, ?_⟩
  · refine ⟨by decide, ⟨⟨_, rfl, by decide⟩, ⟨⟨_, rfl, by decide⟩, trivial, ?_⟩, trivial⟩, by decide, rfl⟩
    exact ⟨⟨_, rfl, by decide⟩, ⟨⟨_, rfl, by decide⟩, trivial, trivial⟩, trivial⟩
  · have again : stems.RefersTo "S" "S" := ⟨_, rfl, [.group "C", .phoneme "a", .group "S"], by decide, by decide⟩
    have onset : stems.RefersTo "S" "C" := ⟨_, rfl, [.group "C", .phoneme "a"], by decide, by decide⟩
    have chain : stems.ReferenceChain [.group "S"] ["C", "S", "S", "S"] :=
      .next (.next (.next (.first (by decide)) again) again) onset
    obtain ⟨cause, given⟩ := failures.mpr ⟨_, List.mem_singleton_self _, _, chain, by decide⟩
    obtain ⟨symbol, rfl⟩ := fault cause given
    exact ⟨symbol, given⟩

end Generator

end Etymology
