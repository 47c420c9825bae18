import Etymology.Proofs.Predicate.Grammar

namespace Etymology

/-- The texts that a lexis has in a field: one in most, none where the field is empty, and any number in
tags and historical metadata. -/
inductive Lexis.Shows (x : Lexis) : Field → String → Prop
  | id : Shows x .id x.id
  | word {w} : x.word = some w → Shows x .word w.text
  | language : Shows x .language x.language
  | pos : Shows x .pos x.pos.name
  | kind : Shows x .kind x.kind
  | archaic : x.archaic = true → Shows x .archaic "true"
  | current : x.archaic = false → Shows x .archaic "false"
  | tag {t} : t ∈ x.tags → Shows x .tags t
  | history {t} : t ∈ x.history → Shows x .history t
  | generate {s} : x.generate = .text s → Shows x .generate s

/-- A field that may have several texts at once. -/
def Field.isSet : Field → Bool
  | .tags => true
  | .history => true
  | _ => false

namespace Conditional

/-- A lexis has the text of a value in a field. -/
def ShowsTextOf (x : Lexis) (f : Field) (v : Value) : Prop :=
  ∃ s, v.literal? = some s ∧ x.Shows f s

/-- Equality asks for one text, and with a list for all of its texts, which only a field with several texts
can have. Nothing stands for the text that an empty field is taken to have. -/
def Equals (x : Lexis) (f : Field) : Value → Prop
  | .list items => f.isSet = true ∧ ∀ v ∈ items, ShowsTextOf x f v
  | .scalar .null => x.Shows f f.absentText
  | v => ShowsTextOf x f v

def Compares (x : Lexis) (f : Field) : Value → Prop
  | .scalar (.text s) => x.Shows f s
  | .mapping [(.text "equals", arg)] => Equals x f arg
  | .mapping [(.text "oneof", .list items)] => ∃ v ∈ items, ShowsTextOf x f v
  | _ => False

def Meets (x : Lexis) (f : Field) : Value → Prop
  | .scalar (.bool b) => x.Shows f (if b then "true" else "false")
  | .mapping [(.text "match", v)] => Compares x f v
  | .mapping [(.text "not", v)] => ¬ Compares x f v
  | v => Compares x f v

mutual

/-- A document asks of a lexis all that its entries ask: that it is not as a negated document asks, or that
the field of some spelling is as the entry says. -/
def Asks (x : Lexis) : Value → Prop
  | .mapping es => AsksEach x es
  | _ => True

def AsksEach (x : Lexis) : List (Scalar × Value) → Prop
  | [] => True
  | (.text "not", v) :: es => ¬ Asks x v ∧ AsksEach x es
  | (key, spec) :: es =>
    (∃ name f, key = .text name ∧ Field.ofSpelling? name = some f ∧ Meets x f spec) ∧ AsksEach x es

end

section Field

variable {x : Lexis} {f : Field} {s : String} {ss : List String} {v : Value}

theorem shows_iff : x.Shows f s ↔ match x.fieldValue f with
    | .one t => t = some s
    | .set ts => s ∈ ts := by
  constructor
  · rintro (_ | given | _ | _ | _ | old | new | member | member | given)
    all_goals simp_all [Lexis.fieldValue, Value.text, Value.text?]
  · cases f with
    | word =>
      intro found
      obtain ⟨w, given, rfl⟩ := Option.map_eq_some_iff.mp found
      exact .word given
    | archaic =>
      intro found
      obtain rfl := Option.some.inj found
      split
      · next old => exact .archaic old
      · next new => exact .current (by simpa using new)
    | tags => exact .tag
    | history => exact .history
    | generate =>
      intro found
      exact .generate (Value.text?_eq_some.mp found)
    | id =>
      rintro ⟨⟩
      exact .id
    | language =>
      rintro ⟨⟩
      exact .language
    | pos =>
      rintro ⟨⟩
      exact .pos
    | kind =>
      rintro ⟨⟩
      exact .kind

theorem isSet_iff : f.isSet = true ↔ ∃ ts, x.fieldValue f = .set ts := by
  cases f <;> simp [Field.isSet, Lexis.fieldValue]

theorem equals_holds_iff : (Comparator.equals s).holds (x.fieldValue f) = true ↔ x.Shows f s := by
  rw [shows_iff]
  cases x.fieldValue f with
  | one t => cases t <;> simp [Comparator.holds]
  | set ts => simp [Comparator.holds]

theorem oneof_holds_iff : (Comparator.oneof ss).holds (x.fieldValue f) = true ↔ ∃ s ∈ ss, x.Shows f s := by
  simp only [shows_iff]
  cases x.fieldValue f with
  | one t => cases t <;> simp [Comparator.holds]
  | set ts => simp [Comparator.holds]

theorem equalsAll_holds_iff :
    (Comparator.equalsAll ss).holds (x.fieldValue f) = true ↔ f.isSet = true ∧ ∀ s ∈ ss, x.Shows f s := by
  simp only [shows_iff, isSet_iff (x := x)]
  cases x.fieldValue f with
  | one t => cases t <;> simp [Comparator.holds]
  | set ts => simp [Comparator.holds]

theorem showsTextOf_iff (text : v.literal? = some s) : ShowsTextOf x f v ↔ x.Shows f s := by
  constructor
  · rintro ⟨t, again, shows⟩
    obtain rfl := Option.some.inj (text.symm.trans again)
    exact shows
  · exact fun shows => ⟨s, text, shows⟩

theorem oneof_texts_iff {items : List Value} (texts : items.mapM Value.literal? = some ss) :
    (∃ s ∈ ss, x.Shows f s) ↔ ∃ v ∈ items, ShowsTextOf x f v := by
  induction Option.mapM_eq_some_iff.mp texts with
  | nil => simp
  | cons here rest ih =>
    rw [List.exists_mem_cons_iff, List.exists_mem_cons_iff, ih (Option.mapM_eq_some_iff.mpr rest), showsTextOf_iff here]

theorem all_texts_iff {items : List Value} (texts : items.mapM Value.literal? = some ss) :
    (∀ s ∈ ss, x.Shows f s) ↔ ∀ v ∈ items, ShowsTextOf x f v := by
  induction Option.mapM_eq_some_iff.mp texts with
  | nil => simp
  | cons here rest ih =>
    rw [List.forall_mem_cons, List.forall_mem_cons, ih (Option.mapM_eq_some_iff.mpr rest), showsTextOf_iff here]

/-- A field that equals a value other than null and a list shows the text of the value. -/
theorem equals_ofValue_holds_iff {c : Comparator}
    (read : Comparator.equals <$> Fault.orUnsuitable v.literal? = .ok c) :
    c.holds (x.fieldValue f) = true ↔ ShowsTextOf x f v := by
  obtain ⟨s, told, rfl⟩ := map_eq_ok.mp read
  rw [equals_holds_iff, showsTextOf_iff (Fault.orUnsuitable_eq_ok.mp told)]

theorem comparator_holds_iff {c : Comparator} (read : Comparator.ofValue f v = .ok c) :
    c.holds (x.fieldValue f) = true ↔ Compares x f v := by
  cases comparisonFault?_eq_none.mp (comparator_reports.eq_ok_iff.mp ⟨c, read⟩) with
  | text s =>
    cases read
    exact equals_holds_iff
  | oneof _ =>
    obtain ⟨ss, told, rfl⟩ := map_eq_ok.mp read
    rw [oneof_holds_iff, oneof_texts_iff (Fault.orUnsuitable_eq_ok.mp told)]
    exact Iff.rfl
  | @equals arg _ =>
    cases arg with
    | list items =>
      obtain ⟨ss, told, rfl⟩ := map_eq_ok.mp read
      rw [equalsAll_holds_iff, all_texts_iff (Fault.orUnsuitable_eq_ok.mp told)]
      exact Iff.rfl
    | scalar s =>
      cases s with
      | null =>
        cases read
        exact equals_holds_iff
      | _ => exact equals_ofValue_holds_iff read
    | mapping es => exact equals_ofValue_holds_iff read

theorem holds_not {p : Predicate} : (Predicate.not p).holds x = true ↔ ¬ p.holds x = true := by
  rw [Predicate.holds, Bool.not_eq_true', Bool.eq_false_iff]

theorem fieldSpec_holds_iff {p : Predicate} (read : Predicate.ofFieldSpec f v = .ok p) :
    p.holds x = true ↔ Meets x f v := by
  cases specFault?_eq_none.mp (fieldSpec_reports.eq_ok_iff.mp ⟨p, read⟩) with
  | truth b =>
    cases read
    exact equals_holds_iff
  | plain comparison =>
    cases comparison with
    | text s =>
      cases read
      exact equals_holds_iff
    | equals _ =>
      obtain ⟨c, compared, rfl⟩ := map_eq_ok.mp read
      exact comparator_holds_iff compared
    | oneof _ =>
      obtain ⟨c, compared, rfl⟩ := map_eq_ok.mp read
      exact comparator_holds_iff compared
  | @matching v comparison =>
    obtain ⟨c, compared, rfl⟩ := map_eq_ok.mp read
    exact comparator_holds_iff compared
  | @negated v comparison =>
    obtain ⟨c, compared, rfl⟩ := map_eq_ok.mp read
    rw [holds_not]
    exact not_congr (comparator_holds_iff compared)

end Field

section Entry

variable {x : Lexis} {key : Scalar} {spec : Value} {p : Predicate} {ps : List Predicate}

theorem holds_conjunction : (Predicate.conjunction ps).holds x = Predicate.allHold ps x := by
  unfold Predicate.conjunction
  split
  · rw [Predicate.allHold, Predicate.allHold, Bool.and_true]
  · rfl

theorem entry_holds_iff (read : Predicate.ofEntry key spec = .ok p) :
    p.holds x = true ↔ ∃ name f, key = .text name ∧ Field.ofSpelling? name = some f ∧ Meets x f spec := by
  unfold Predicate.ofEntry at read
  split at read
  · next name =>
    split at read
    · next f spelled =>
      rw [fieldSpec_holds_iff read]
      constructor
      · intro meets
        exact ⟨name, f, rfl, spelled, meets⟩
      · rintro ⟨_, g, ⟨⟩, again, meets⟩
        obtain rfl := Option.some.inj (spelled.symm.trans again)
        exact meets
    · cases read
  · cases read

end Entry

mutual

theorem ofValue_holds_iff (x : Lexis) : ∀ (v : Value) (p : Predicate), Predicate.ofValue v = .ok (some p) →
    (p.holds x = true ↔ Asks x v)
  | .scalar .null, _, read => nomatch read
  | .scalar (.bool _), _, read | .scalar (.int _), _, read | .scalar (.float _), _, read
  | .scalar (.text _), _, read | .scalar (.date _), _, read | .scalar (.moment _), _, read
  | .scalar (.bytes _), _, read => nomatch read
  | .list _, _, read => nomatch read
  | .mapping [], _, read => nomatch read
  | .mapping (e :: es), p, read => by
    rw [Predicate.ofValue] at read
    split at read
    · next ps run =>
      cases read
      rw [holds_conjunction]
      exact ofEntries_holds_iff x (e :: es) ps run
    · cases read

theorem ofEntries_holds_iff (x : Lexis) : ∀ (es : Entries) (ps : List Predicate), Predicate.ofEntries es = .ok ps →
    (Predicate.allHold ps x = true ↔ AsksEach x es)
  | [], ps, read => by
    cases read
    simp [Predicate.allHold, AsksEach]
  | (key, spec) :: rest, ps, read => by
    by_cases negation : key = .text "not"
    · subst negation
      rw [Predicate.ofEntries] at read
      split at read
      · cases read
      · next p here =>
        split at read
        · next later =>
          cases read
          rw [Predicate.allHold, Bool.and_eq_true, AsksEach, holds_not, ofValue_holds_iff x spec p here,
            ofEntries_holds_iff x rest _ later]
        · cases read
      · cases read
    · rw [ofEntries_said negation] at read
      obtain ⟨p, here, read⟩ := bind_eq_ok.mp read
      obtain ⟨ps, later, read⟩ := bind_eq_ok.mp read
      cases read
      rw [Predicate.allHold, Bool.and_eq_true, AsksEach, entry_holds_iff here, ofEntries_holds_iff x rest ps later]
      exact negation

end

/-- Reading decides whether a value is a document of conditions; null is none at all. Of any other value it
reports the first fault in the order of the document, an unknown field or a malformation, or nothing of the
kind where it comes upon an integer that has no text. What it reads holds of the lexes that are as the
document asks. -/
theorem ofValue_means (v : Value) :
    (Predicate.ofValue v = .ok none ↔ v = .null) ∧
      ((∃ p, Predicate.ofValue v = .ok (some p)) ↔ Document v) ∧
      (∀ fault, Predicate.ofValue v = .error fault ↔ v ≠ .null ∧ firstFault? v = some fault) ∧
      (∀ fault, Predicate.ofValue v = .error fault → (∃ field, fault = .unknownField field) ∨
        (∃ cause, fault = .malformed cause none) ∨ fault = .unsuitable ∧ v.Untold) ∧
      ∀ p, Predicate.ofValue v = .ok (some p) → ∀ x, p.holds x = true ↔ Asks x v := by
  have faulty : ∀ fault, Predicate.ofValue v = .error fault ↔ v ≠ .null ∧ firstFault? v = some fault := by
    intro fault
    constructor
    · intro failed
      have present : v ≠ .null := by
        rintro rfl
        cases failed
      exact ⟨present, (ofValue_reports v present).eq_error_iff.mp failed⟩
    · rintro ⟨present, first⟩
      exact (ofValue_reports v present).eq_error_iff.mpr first
  refine ⟨ofValue_eq_none_iff, ?_, faulty, ?_, ?_⟩
  · rw [document_iff]
    constructor
    · rintro ⟨p, read⟩
      have present : v ≠ .null := by
        rintro rfl
        cases read
      exact (ofValue_reports v present).eq_ok_iff.mp ⟨_, read⟩
    · intro quiet
      have present : v ≠ .null := by
        rintro rfl
        cases quiet
      obtain ⟨p?, read⟩ := (ofValue_reports v present).eq_ok_iff.mpr quiet
      cases p? with
      | none => exact absurd (ofValue_eq_none_iff.mp read) present
      | some p => exact ⟨p, read⟩
  · intro fault failed
    exact firstFault?_cases ((faulty fault).mp failed).2
  · intro p read x
    exact ofValue_holds_iff x v p read

/-- Nouns in use that are no loans and have not been found in both of two years. -/
def nativeNouns : Value :=
  .mapping [
    (.text "part_of_speech", .scalar (.text "noun")),
    (.text "not", .mapping [
      (.text "tags", .mapping [(.text "match", .mapping [(.text "oneof", .list [.text "loan", .text "rare"])])])]),
    (.text "historical_metadata", .mapping [(.text "not", .mapping [(.text "equals", .list [.int 1066, .int 1204])])]),
    (.text "archaic", .scalar (.bool false))]

/-- Two entries are at fault, of which the one below the negation comes first. -/
def colouredNouns : Value :=
  .mapping [
    (.text "language", .text "Latin"),
    (.text "not", .mapping [(.text "colour", .text "red")]),
    (.text "pos", .mapping [(.text "near", .text "noun")])]

theorem nativeNouns_asked_colouredNouns_faulty :
    (∃ p, Predicate.ofValue nativeNouns = .ok (some p) ∧
        ∀ history, p.holds { id := "hus", pos := .noun, tags := ["old"], history := history } = true ↔
          ¬ ("1066" ∈ history ∧ "1204" ∈ history)) ∧
      Predicate.ofValue colouredNouns = .error (.unknownField "colour") := by
  obtain ⟨-, accepted, -, -, means⟩ := ofValue_means nativeNouns
  obtain ⟨-, -, faulty, -, -⟩ := ofValue_means colouredNouns
  have read : ∃ p, Predicate.ofValue nativeNouns = .ok (some p) := ⟨_, rfl⟩
  obtain ⟨p, read⟩ := read
  refine ⟨⟨p, read, fun history => ?_⟩, (faulty _).mpr ⟨nofun, rfl⟩⟩
  have first : Value.literal? (.int 1066) = some "1066" := by decide
  have second : Value.literal? (.int 1204) = some "1204" := by decide
  have loan : Value.literal? (.text "loan") = some "loan" := rfl
  have rare : Value.literal? (.text "rare") = some "rare" := rfl
  rw [means p read]
  simp [showsTextOf_iff first, showsTextOf_iff second, showsTextOf_iff loan, showsTextOf_iff rare, nativeNouns, Asks,
    AsksEach, Meets, Compares, Equals, shows_iff, Lexis.fieldValue, Field.ofSpelling?, Field.isSet, PartOfSpeech.name]

/-- The document that asks the id to be a number. -/
def numbered (n : Int) : Value :=
  .mapping [(.text "id", .mapping [(.text "equals", .int n)])]

theorem ofValue_numbered_overlong {n : Int} (long : Overlong n) :
    Predicate.ofValue (numbered n) = .error .unsuitable := by
  have untold : (Value.int n).quoted? = none := (Value.quoted?_eq_none_iff _).mpr (.int long)
  have spelled : Field.ofSpelling? "id" = some .id := rfl
  refine (ofValue_reports (numbered n) nofun).eq_error_iff.mpr ?_
  simp [firstFault?, numbered, documentFault?, entriesOf, entriesWithin, entryFault?, spelled, specFault?,
    comparisonFault?, literalFault?, untold]

/-- A document of the right shape is refused for a literal of 4301 digits. -/
theorem numbered_unsuitable : Predicate.ofValue (numbered (10 ^ 4300)) = .error .unsuitable :=
  ofValue_numbered_overlong overlong_ten_pow

end Conditional

end Etymology
