import Etymology.Proofs.Predicate.Meaning

namespace Etymology.Conditional

/-- A document is read to a condition, and the lexis is as it asks. -/
def Matches (doc : Value) (x : Lexis) : Prop :=
  ∃ p, Predicate.ofValue doc = .ok (some p) ∧ p.holds x = true

/-- The document that asks a field to be one of some values. -/
def membership (name : String) (items : List Value) : Value :=
  .mapping [(.text name, .mapping [(.text "oneof", .list items)])]

/-- The document that asks a field to equal a value. -/
def equality (name : String) (v : Value) : Value :=
  .mapping [(.text name, .mapping [(.text "match", .mapping [(.text "equals", v)])])]

section Reading

variable {name : String} {f : Field} {x : Lexis} {p : Predicate} {spec v : Value} {items : List Value}

theorem ofValue_single (spelled : Field.ofSpelling? name = some f) (read : Predicate.ofFieldSpec f spec = .ok p) :
    Predicate.ofValue (.mapping [(.text name, spec)]) = .ok (some p) := by
  have said : Scalar.text name ≠ .text "not" := by
    rintro ⟨⟩
    cases spelled
  have entry : Predicate.ofEntry (.text name) spec = .ok p := by
    simp only [Predicate.ofEntry, spelled, read]
  rw [Predicate.ofValue, ofEntries_said said, entry]
  rfl

theorem matches_single (spelled : Field.ofSpelling? name = some f) (read : Predicate.ofFieldSpec f spec = .ok p) :
    Matches (.mapping [(.text name, spec)]) x ↔ Meets x f spec := by
  rw [← fieldSpec_holds_iff read]
  constructor
  · rintro ⟨q, found, holds⟩
    rw [ofValue_single spelled read] at found
    cases found
    exact holds
  · intro holds
    exact ⟨p, ofValue_single spelled read, holds⟩

theorem ofValue_single_iff (spelled : Field.ofSpelling? name = some f) :
    (∃ p, Predicate.ofValue (.mapping [(.text name, spec)]) = .ok (some p)) ↔ FieldSpec spec := by
  rw [(ofValue_means _).2.1]
  constructor
  · rintro ⟨each⟩
    cases each _ List.mem_cons_self with
    | negation => cases spelled
    | field _ fine => exact fine
  · exact fun fine => .entries (List.forall_mem_singleton.mpr (.field spelled fine))

theorem exists_ofFieldSpec (fine : FieldSpec spec) : ∃ p, Predicate.ofFieldSpec f spec = .ok p :=
  fieldSpec_reports.eq_ok_iff.mpr (specFault?_eq_none.mpr fine)

/-- A membership is read where all of its values have texts. -/
theorem exists_membership_iff (spelled : Field.ofSpelling? name = some f) :
    (∃ p, Predicate.ofValue (membership name items) = .ok (some p)) ↔ ¬ (Value.list items).Untold := by
  rw [membership, ofValue_single_iff spelled, ← specFault?_eq_none (f := f)]
  exact literalFault?_eq_none (v := .list items)

theorem exists_equality_iff (spelled : Field.ofSpelling? name = some f) :
    (∃ p, Predicate.ofValue (equality name v) = .ok (some p)) ↔ ¬ v.Untold := by
  rw [equality, ofValue_single_iff spelled, ← specFault?_eq_none (f := f)]
  exact literalFault?_eq_none

theorem matches_membership (spelled : Field.ofSpelling? name = some f) :
    Matches (membership name items) x ↔ ¬ (Value.list items).Untold ∧ ∃ v ∈ items, ShowsTextOf x f v := by
  constructor
  · rintro ⟨p, read, holds⟩
    have told := (exists_membership_iff spelled).mp ⟨p, read⟩
    obtain ⟨q, spec⟩ := exists_ofFieldSpec (f := f) (.plain (.oneof told))
    exact ⟨told, (matches_single spelled spec).mp ⟨p, read, holds⟩⟩
  · rintro ⟨told, one⟩
    obtain ⟨q, spec⟩ := exists_ofFieldSpec (f := f) (.plain (.oneof told))
    exact (matches_single spelled spec).mpr one

/-- What is equal has a text. -/
theorem matches_equality (spelled : Field.ofSpelling? name = some f) :
    Matches (equality name v) x ↔ ¬ v.Untold ∧ Equals x f v := by
  constructor
  · rintro ⟨p, read, holds⟩
    have told := (exists_equality_iff spelled).mp ⟨p, read⟩
    obtain ⟨q, spec⟩ := exists_ofFieldSpec (f := f) (.matching (.equals told))
    exact ⟨told, (matches_single spelled spec).mp ⟨p, read, holds⟩⟩
  · rintro ⟨told, equal⟩
    obtain ⟨q, spec⟩ := exists_ofFieldSpec (f := f) (.matching (.equals told))
    exact (matches_single spelled spec).mpr equal

theorem ShowsTextOf.told (shows : ShowsTextOf x f v) : ¬ v.Untold := by
  obtain ⟨s, text, -⟩ := shows
  rw [← Value.literal?_eq_none_iff, text]
  exact nofun

/-- All scalars but null are compared by their texts, by themselves as in lists. -/
theorem matches_scalar_equality {v : Scalar} (spelled : Field.ofSpelling? name = some f) (present : v ≠ .null) :
    Matches (equality name (.scalar v)) x ↔ ShowsTextOf x f (.scalar v) := by
  have equals : Equals x f (.scalar v) ↔ ShowsTextOf x f (.scalar v) := by
    cases v with
    | null => exact absurd rfl present
    | _ => exact Iff.rfl
  rw [matches_equality spelled, equals]
  exact and_iff_right_of_imp ShowsTextOf.told

theorem untold_scalars_iff {vs : List Scalar} :
    (Value.list (vs.map .scalar)).Untold ↔ ∃ v ∈ vs, (Value.scalar v).Untold := by
  simp only [Value.untold_list_iff, List.mem_map, exists_exists_and_eq_and]

/-- Null in a list is compared by its written text. -/
theorem shows_null_iff : ShowsTextOf x f .null ↔ x.Shows f "None" :=
  showsTextOf_iff rfl

theorem matches_membership_scalars {vs : List Scalar} (spelled : Field.ofSpelling? name = some f) :
    Matches (membership name (vs.map .scalar)) x ↔ (∀ v ∈ vs, ¬ (Value.scalar v).Untold) ∧
      ((∃ v ∈ vs, v ≠ .null ∧ Matches (equality name (.scalar v)) x) ∨ .null ∈ vs ∧ x.Shows f "None") := by
  rw [matches_membership spelled, untold_scalars_iff, ← shows_null_iff]
  push Not
  simp only [List.mem_map, exists_exists_and_eq_and]
  refine and_congr_right fun _ => ?_
  constructor
  · rintro ⟨v, member, shows⟩
    by_cases null : v = .null
    · subst null
      exact .inr ⟨member, shows⟩
    · exact .inl ⟨v, member, null, (matches_scalar_equality spelled null).mpr shows⟩
  · rintro (⟨v, member, present, equal⟩ | ⟨member, shows⟩)
    · exact ⟨v, member, (matches_scalar_equality spelled present).mp equal⟩
    · exact ⟨.null, member, shows⟩

theorem matches_set_equality_scalars {vs : List Scalar} (spelled : Field.ofSpelling? name = some f)
    (many : f.isSet = true) : Matches (equality name (.list (vs.map .scalar))) x ↔
      (∀ v ∈ vs, v ≠ .null → Matches (equality name (.scalar v)) x) ∧ (.null ∈ vs → x.Shows f "None") := by
  have whole : Equals x f (.list (vs.map .scalar)) ↔ ∀ v ∈ vs, ShowsTextOf x f (.scalar v) := by
    rw [Equals, List.forall_mem_map]
    exact and_iff_right many
  have told (each : ∀ v ∈ vs, ShowsTextOf x f (.scalar v)) : ¬ (Value.list (vs.map .scalar)).Untold := by
    rw [untold_scalars_iff]
    rintro ⟨v, member, untold⟩
    exact (each v member).told untold
  rw [matches_equality spelled, whole, and_iff_right_of_imp told, ← shows_null_iff]
  constructor
  · intro each
    exact ⟨fun v member present => (matches_scalar_equality spelled present).mpr (each v member), each .null⟩
  · rintro ⟨equal, written⟩ v member
    by_cases null : v = .null
    · subst null
      exact written member
    · exact (matches_scalar_equality spelled null).mp (equal v member null)

end Reading

/-- Documents that ask for one of some scalars, or for equality, are accepted where these have texts. A field is one of
the scalars where it equals one of them, and a set has all of them where it equals each, as long as null is not among
them. Null in a list asks for its written text, although by itself it equals what an empty field is taken to hold. -/
theorem membership_iff_equalities {name : String} {f : Field} (spelled : Field.ofSpelling? name = some f)
    (vs : List Scalar) (x : Lexis) :
    ((∃ p, Predicate.ofValue (membership name (vs.map .scalar)) = .ok (some p)) ↔
        ∀ v ∈ vs, ¬ (Value.scalar v).Untold) ∧
      (∀ v, (∃ p, Predicate.ofValue (equality name v) = .ok (some p)) ↔ ¬ v.Untold) ∧
      (Matches (membership name (vs.map .scalar)) x ↔ (∀ v ∈ vs, ¬ (Value.scalar v).Untold) ∧
        ((∃ v ∈ vs, v ≠ .null ∧ Matches (equality name (.scalar v)) x) ∨ .null ∈ vs ∧ x.Shows f "None")) ∧
      (f.isSet = true → (Matches (equality name (.list (vs.map .scalar))) x ↔
        (∀ v ∈ vs, v ≠ .null → Matches (equality name (.scalar v)) x) ∧ (.null ∈ vs → x.Shows f "None"))) ∧
      (Matches (equality name .null) x ↔ x.Shows f f.absentText) := by
  refine ⟨?_, fun v => exists_equality_iff spelled, matches_membership_scalars spelled,
    matches_set_equality_scalars spelled, ?_⟩
  · rw [exists_membership_iff spelled, untold_scalars_iff]
    push Not
    exact Iff.rfl
  · rw [matches_equality spelled]
    exact and_iff_right nofun

/-- A word of which only tags are known. -/
def tagged : Lexis where
  id := "tagged"
  tags := ["3", "true", ""]

/-- A number and a truth value in a list, beside null below the second spelling of a field, and below a set. -/
theorem tagged_listed :
    Field.ofSpelling? "lexis_type" = some .kind ∧
      Matches (membership "lexis_type" [.scalar .null, .int 3, .scalar (.bool true)]) { tagged with kind := "true" } ∧
      ¬ Matches (membership "lexis_type" [.scalar .null, .int 3, .scalar (.bool true)]) tagged ∧
      Matches (equality "tags" (.list [.int 3, .scalar (.bool true)])) tagged := by
  have kind : Field.ofSpelling? "lexis_type" = some .kind := rfl
  have tags : Field.ofSpelling? "tags" = some .tags := rfl
  have one := fun x => (membership_iff_equalities kind [.null, .int 3, .bool true] x).2.2.1
  have all := (membership_iff_equalities tags [.int 3, .bool true] tagged).2.2.2.1 rfl
  have number : Value.literal? (.scalar (.int 3)) = some "3" := by decide
  have truth : Value.literal? (.scalar (.bool true)) = some "true" := rfl
  have told : ∀ v ∈ [Scalar.null, .int 3, .bool true], ¬ (Value.scalar v).Untold := by
    simp only [← Value.literal?_eq_none_iff]
    decide
  refine ⟨kind, (one _).mpr ⟨told, .inl ⟨.bool true, by decide, nofun, ?_⟩⟩, ?_, all.mpr ⟨?_, fun null => absurd null (by decide)⟩⟩
  · rw [matches_scalar_equality kind (by decide), showsTextOf_iff truth]
    exact .kind
  · intro found
    have cases := ((one _).mp found).2
    simp [matches_scalar_equality kind, showsTextOf_iff number, showsTextOf_iff truth, shows_iff, Lexis.fieldValue,
      tagged] at cases
  · simp [matches_scalar_equality tags, showsTextOf_iff number, showsTextOf_iff truth, shows_iff, Lexis.fieldValue,
      tagged]

/-- A part of speech that is not known equals null, and yet it is not one of a list of null. Nor does a set that
equals null have all of such a list. -/
theorem tagged_not_one_of_null :
    (∃ v ∈ [Scalar.null], Matches (equality "pos" (.scalar v)) tagged) ∧
      ¬ Matches (membership "pos" [.scalar .null]) tagged ∧
      (∀ v ∈ [Scalar.null], Matches (equality "tags" (.scalar v)) tagged) ∧
      ¬ Matches (equality "tags" (.list [.scalar .null])) tagged := by
  have pos : Field.ofSpelling? "pos" = some .pos := rfl
  have tags : Field.ofSpelling? "tags" = some .tags := rfl
  have null : ∀ f x, ShowsTextOf x f (.scalar .null) ↔ x.Shows f "None" := fun _ _ => shows_null_iff
  have told : ¬ (Value.scalar .null).Untold := nofun
  simp [matches_membership pos, matches_equality pos, matches_equality tags, Equals, told, null, shows_iff,
    Lexis.fieldValue, Field.absentText, tagged, PartOfSpeech.name]

end Etymology.Conditional
