import Etymology.Proofs.Predicate.Meaning

namespace Etymology

/-- The fields that a predicate asks about, however deep below negations and conjunctions. -/
inductive Predicate.Names : Predicate → Field → Prop
  | field {f c} : Names (.field f c) f
  | not {p f} : Names p f → Names (.not p) f
  | all {p ps f} : p ∈ ps → Names p f → Names (.all ps) f

/-- Two lexes agree on a field where they have the same text in it, or neither has one; a word counts by its text.
Tags and historical metadata are sets, so that neither order nor repetition counts. -/
def Lexis.Agrees (x y : Lexis) : Field → Prop
  | .id => x.id = y.id
  | .word => x.word.map Word.text = y.word.map Word.text
  | .language => x.language = y.language
  | .pos => x.pos = y.pos
  | .kind => x.kind = y.kind
  | .archaic => x.archaic = y.archaic
  | .tags => ∀ t, t ∈ x.tags ↔ t ∈ y.tags
  | .history => ∀ t, t ∈ x.history ↔ t ∈ y.history
  | .generate => x.generate.text? = y.generate.text?

theorem PartOfSpeech.name_inj {p q : PartOfSpeech} : p.name = q.name ↔ p = q := by
  constructor
  · intro same
    have read := congrArg ofName? same
    cases p <;> cases q <;> first | rfl | exact absurd read (by decide)
  · exact congrArg name

namespace Lexis

variable {x y : Lexis} {f : Field}

/-- A field shows the same of two lexes exactly where they agree on it. -/
theorem agrees_iff_shows : x.Agrees y f ↔ ∀ s, x.Shows f s ↔ y.Shows f s := by
  have texts : ∀ {a b : String}, a = b ↔ ∀ s, some a = some s ↔ some b = some s :=
    Option.some_inj.symm.trans Option.ext_iff
  simp only [Conditional.shows_iff]
  cases f with
  | tags => exact Iff.rfl
  | history => exact Iff.rfl
  | word => exact Option.ext_iff
  | generate => exact Option.ext_iff
  | id => exact texts
  | language => exact texts
  | kind => exact texts
  | pos => exact PartOfSpeech.name_inj.symm.trans texts
  | archaic =>
    refine Iff.trans ?_ texts
    simp only [Agrees]
    cases x.archaic <;> cases y.archaic <;> decide

theorem agrees_of_fieldValue_eq (same : x.fieldValue f = y.fieldValue f) : x.Agrees y f := by
  rw [agrees_iff_shows]
  intro s
  rw [Conditional.shows_iff, Conditional.shows_iff, same]

end Lexis

namespace Predicate

variable {x y : Lexis} {f : Field}

/-- A comparison asks no more than which texts the field shows. -/
theorem comparator_holds_congr (agree : x.Agrees y f) (c : Comparator) :
    c.holds (x.fieldValue f) = c.holds (y.fieldValue f) := by
  have shows := Lexis.agrees_iff_shows.mp agree
  rw [Bool.eq_iff_iff]
  cases c with
  | equals s => simp only [Conditional.equals_holds_iff, shows]
  | equalsAll ss => simp only [Conditional.equalsAll_holds_iff, shows]
  | oneof ss => simp only [Conditional.oneof_holds_iff, shows]

mutual

theorem holds_congr : ∀ p : Predicate, (∀ f, p.Names f → x.Agrees y f) → p.holds x = p.holds y
  | .field f c, agree => by
    rw [holds, holds]
    exact comparator_holds_congr (agree f .field) c
  | .not p, agree => by
    rw [holds, holds, holds_congr p fun f named => agree f (.not named)]
  | .all ps, agree => by
    rw [holds, holds]
    exact allHold_congr ps fun p member f named => agree f (.all member named)

theorem allHold_congr : ∀ ps : List Predicate, (∀ p ∈ ps, ∀ f, p.Names f → x.Agrees y f) →
    allHold ps x = allHold ps y
  | [], _ => by rw [allHold, allHold]
  | p :: ps, agree => by
    have here := holds_congr p (agree p List.mem_cons_self)
    have later := allHold_congr ps fun q member => agree q (List.mem_cons_of_mem p member)
    rw [allHold, allHold, here, later]

end

/-- Lexes that disagree on a field are told apart by the comparison with a text that it shows of one of them. -/
theorem exists_tells_apart (differ : ¬ x.Agrees y f) : ∃ s,
    (Predicate.field f (.equals s)).holds x ≠ (Predicate.field f (.equals s)).holds y := by
  rw [Lexis.agrees_iff_shows, Classical.not_forall] at differ
  obtain ⟨s, shown⟩ := differ
  refine ⟨s, fun same => shown ?_⟩
  rw [holds, holds, Bool.eq_iff_iff, Conditional.equals_holds_iff, Conditional.equals_holds_iff] at same
  exact same

/-- A predicate sees only what it names: lexes that agree on the fields that it names, at whatever depth, are the
same to it. So it depends neither on definitions nor on etymons, and of a word on nothing but its text. Less than
agreement would not do, since whatever a field shows is seen by a predicate that names that field alone. -/
theorem sees_only_named :
    (∀ (p : Predicate) (x y : Lexis), (∀ f, p.Names f → x.Agrees y f) → p.holds x = p.holds y) ∧
      (∀ (p : Predicate) (x : Lexis) definition etymons,
        p.holds { x with definition := definition, etymons := etymons } = p.holds x) ∧
      (∀ (p : Predicate) (x : Lexis) (v w : Word), v.text = w.text →
        p.holds { x with word := some v } = p.holds { x with word := some w }) ∧
      ∀ (x y : Lexis) f, ¬ x.Agrees y f →
        ∃ p : Predicate, (∀ g, p.Names g ↔ g = f) ∧ p.holds x ≠ p.holds y := by
  refine ⟨fun p x y agree => holds_congr p agree, ?_, ?_, ?_⟩
  · intro p x definition etymons
    refine holds_congr p fun f _ => Lexis.agrees_of_fieldValue_eq ?_
    cases f <;> rfl
  · intro p x v w same
    refine holds_congr p fun f _ => Lexis.agrees_of_fieldValue_eq ?_
    cases f with
    | word => exact congrArg (fun t => FieldValue.one (some t)) same
    | _ => rfl
  · intro x y f differ
    obtain ⟨s, apart⟩ := exists_tells_apart differ
    refine ⟨.field f (.equals s), fun g => ⟨?_, ?_⟩, apart⟩
    · rintro ⟨⟩
      rfl
    · rintro rfl
      exact .field

/-- A loan with a letter of two characters, and the same word in other letters and with its tags in other order. -/
def cited : Lexis where
  id := "cited"
  word := some ⟨["rw", "a"]⟩
  definition := "one"
  tags := ["rare", "loan", "rare"]

def respelt : Lexis where
  id := "respelt"
  word := some ⟨["r", "w", "a"]⟩
  etymons := [⟨"cited", [], 0⟩]
  tags := ["loan", "rare"]

/-- Not another word than this, or no rare loan. -/
def rareLoan : Predicate :=
  .not (.all [.field .word (.equals "rwa"), .not (.field .tags (.equalsAll ["loan", "rare"]))])

theorem cited_respelt_alike :
    (∀ f, rareLoan.Names f → cited.Agrees respelt f) ∧ rareLoan.holds cited = rareLoan.holds respelt ∧
      cited.word ≠ respelt.word ∧
      ∃ p : Predicate, (∀ f, p.Names f ↔ f = .id) ∧ p.holds cited ≠ p.holds respelt := by
  obtain ⟨alike, -, -, apart⟩ := sees_only_named
  have agree : ∀ f, rareLoan.Names f → cited.Agrees respelt f := by
    intro f named
    cases named with
    | not named =>
      cases named with
      | all member named =>
        rw [List.mem_cons, List.mem_singleton] at member
        rcases member with rfl | rfl
        · cases named
          exact rfl
        · cases named with
          | not named =>
            cases named
            simp [Lexis.Agrees, cited, respelt, or_comm]
  have other : cited.id ≠ respelt.id := by decide
  exact ⟨agree, alike _ _ _ agree, by decide, apart cited respelt .id other⟩

end Predicate

end Etymology
