import Etymology.Proofs.Document.Numeral

namespace Etymology.Conditional

/-- What a field may be compared with: a bare text, or one of two operators with its argument, which has a
text. -/
inductive Comparison : Value → Prop
  | text (s : String) : Comparison (.scalar (.text s))
  | equals {arg : Value} : ¬ arg.Untold → Comparison (.mapping [(.text "equals", arg)])
  | oneof {items : List Value} : ¬ (Value.list items).Untold → Comparison (.mapping [(.text "oneof", .list items)])

/-- What may be said of a field. -/
inductive FieldSpec : Value → Prop
  | truth (b : Bool) : FieldSpec (.scalar (.bool b))
  | plain {v} : Comparison v → FieldSpec v
  | matching {v} : Comparison v → FieldSpec (.mapping [(.text "match", v)])
  | negated {v} : Comparison v → FieldSpec (.mapping [(.text "not", v)])

mutual

/-- A document has at least one entry. -/
inductive Document : Value → Prop
  | entries {e es} : (∀ d ∈ e :: es, Entry d) → Document (.mapping (e :: es))

/-- An entry negates a document, or says something of a field that is known by its spelling. -/
inductive Entry : Scalar × Value → Prop
  | negation {v} : Document v → Entry (.text "not", v)
  | field {name f spec} : Field.ofSpelling? name = some f → FieldSpec spec → Entry (.text name, spec)

end

/-- What a field is compared with is turned into texts. -/
def literalFault? (arg : Value) : Option Fault :=
  if arg.quoted?.isSome then none else some .unsuitable

def comparisonFault? (f : Field) : Value → Option Fault
  | .scalar (.text _) => none
  | .mapping [(.text "equals", arg)] => literalFault? arg
  | .mapping [(.text "oneof", .list items)] => literalFault? (.list items)
  | .mapping [(.text "oneof", _)] => some (.malformed (.oneofNotList f) none)
  | .mapping [(key, _)] => some (.telling key.written? fun s => .malformed (.unknownComparator f s) none)
  | _ => some (.malformed (.badComparator f) none)

def specFault? (f : Field) : Value → Option Fault
  | .scalar (.bool _) => none
  | .scalar (.text _) => none
  | .mapping [(.text "match", v)] => comparisonFault? f v
  | .mapping [(.text "not", v)] => comparisonFault? f v
  | .mapping [e] => comparisonFault? f (.mapping [e])
  | _ => some (.malformed (.badFieldSpec f) none)

/-- How a value fails to be a document, its entries aside. -/
def documentFault? : Value → Option Fault
  | .mapping [] => some (.malformed .conditionalEmpty none)
  | .mapping (_ :: _) => none
  | v => some (.malformed (.conditionalNotMapping v) none)

/-- How an entry is at fault, those below it aside. -/
def entryFault? : Scalar × Value → Option Fault
  | (.text "not", .scalar .null) => some (.malformed .nothingNegated none)
  | (.text "not", v) => documentFault? v
  | (.text name, spec) => match Field.ofSpelling? name with
    | some f => specFault? f spec
    | none => some (.unknownField name)
  | (key, _) => some (.telling key.written? .unknownField)

mutual

/-- All entries of a document, depth first: those below a negation follow it. -/
def entriesOf : Value → List (Scalar × Value)
  | .mapping es => entriesWithin es
  | _ => []

def entriesWithin : List (Scalar × Value) → List (Scalar × Value)
  | [] => []
  | (.text "not", v) :: es => (.text "not", v) :: (entriesOf v ++ entriesWithin es)
  | e :: es => e :: entriesWithin es

end

/-- The fault of the value itself, or else of the first entry that has one. -/
def firstFault? (v : Value) : Option Fault :=
  (documentFault? v).or ((entriesOf v).findSome? entryFault?)

section Field

variable {f : Field} {v : Value}

theorem literalFault?_eq_none : literalFault? v = none ↔ ¬ v.Untold := by
  rw [literalFault?, ← Value.quoted?_eq_none_iff]
  cases v.quoted? <;> simp

theorem comparisonFault?_eq_none : comparisonFault? f v = none ↔ Comparison v := by
  constructor
  · intro fine
    unfold comparisonFault? at fine
    split at fine
    · exact .text _
    · exact .equals (literalFault?_eq_none.mp fine)
    · exact .oneof (literalFault?_eq_none.mp fine)
    all_goals cases fine
  · rintro (_ | told | told)
    · rfl
    · exact literalFault?_eq_none.mpr told
    · exact literalFault?_eq_none.mpr told

theorem specFault?_eq_none : specFault? f v = none ↔ FieldSpec v := by
  constructor
  · intro fine
    unfold specFault? at fine
    split at fine
    · exact .truth _
    · exact .plain (.text _)
    · exact .matching (comparisonFault?_eq_none.mp fine)
    · exact .negated (comparisonFault?_eq_none.mp fine)
    · exact .plain (comparisonFault?_eq_none.mp fine)
    · cases fine
  · intro fine
    cases fine with
    | truth => rfl
    | plain comparison =>
      cases comparison with
      | text => rfl
      | equals told => exact literalFault?_eq_none.mpr told
      | oneof told => exact literalFault?_eq_none.mpr told
    | matching comparison => exact comparisonFault?_eq_none.mpr comparison
    | negated comparison => exact comparisonFault?_eq_none.mpr comparison

theorem orUnsuitable_reports {α : Type} {a? : Option α} (none_iff : a? = none ↔ v.Untold) :
    Reports (Fault.orUnsuitable a?) (literalFault? v) := by
  rw [← Value.quoted?_eq_none_iff] at none_iff
  rw [literalFault?]
  cases a? with
  | none =>
    rw [none_iff.mp rfl]
    rfl
  | some a =>
    have told : v.quoted?.isSome = true := by
      rw [Option.isSome_iff_ne_none, ne_eq, ← none_iff]
      exact nofun
    rw [if_pos told]
    exact ⟨a, rfl⟩

theorem comparator_reports : Reports (Comparator.ofValue f v) (comparisonFault? f v) := by
  unfold Comparator.ofValue
  split
  · exact ⟨_, rfl⟩
  · next key arg =>
    split
    · split
      · exact (orUnsuitable_reports Value.mapM_literal?_eq_none_iff).map _
      · exact ⟨_, rfl⟩
      · exact (orUnsuitable_reports Value.literal?_eq_none_iff).map _
    · cases arg with
      | list items => exact (orUnsuitable_reports Value.mapM_literal?_eq_none_iff).map _
      | scalar s => rfl
      | mapping es => rfl
    · next unequal unlisted =>
      rw [comparisonFault?]
      · rfl
      all_goals simp_all
  · next bare single =>
    rw [comparisonFault?]
    · rfl
    all_goals simp_all

theorem fieldSpec_reports : Reports (Predicate.ofFieldSpec f v) (specFault? f v) := by
  unfold Predicate.ofFieldSpec
  split
  · exact ⟨_, rfl⟩
  · exact ⟨_, rfl⟩
  · next key arg =>
    split
    · exact comparator_reports.map _
    · exact Reports.map comparator_reports _
    · next unmatched unnegated =>
      rw [specFault?]
      · exact comparator_reports.map _
      all_goals simp_all
  · rw [specFault?]
    · rfl
    all_goals simp_all

end Field

section Entry

variable {key : Scalar} {spec v : Value} {rest : Entries}

theorem entry_reports (said : key ≠ .text "not") :
    Reports (Predicate.ofEntry key spec) (entryFault? (key, spec)) := by
  unfold Predicate.ofEntry
  split
  · next name =>
    rw [entryFault?]
    · cases Field.ofSpelling? name with
      | some f => exact fieldSpec_reports
      | none => rfl
    all_goals simp_all
  · next unnamed =>
    rw [entryFault?]
    · rfl
    all_goals simp_all

/-- Only null stands for no condition. -/
theorem ofValue_eq_none_iff : Predicate.ofValue v = .ok none ↔ v = .null := by
  constructor
  · intro read
    unfold Predicate.ofValue at read
    split at read
    · rfl
    · cases read
    · split at read <;> cases read
    · cases read
  · rintro rfl
    rfl

theorem ofEntries_said (said : key ≠ .text "not") :
    Predicate.ofEntries ((key, spec) :: rest) =
      (do let p ← Predicate.ofEntry key spec; let ps ← Predicate.ofEntries rest; return p :: ps) := by
  rw [Predicate.ofEntries]
  · cases Predicate.ofEntry key spec <;> cases Predicate.ofEntries rest <;> rfl
  · exact said

theorem ofEntries_negated (present : spec ≠ .null) :
    Predicate.ofEntries ((.text "not", spec) :: rest) =
      (do let p? ← Predicate.ofValue spec; let ps ← Predicate.ofEntries rest; return (p?.map .not).toList ++ ps) := by
  rw [Predicate.ofEntries]
  cases read : Predicate.ofValue spec with
  | error fault => rfl
  | ok p? =>
    cases p? with
    | none => exact absurd (ofValue_eq_none_iff.mp read) present
    | some p => cases Predicate.ofEntries rest <;> rfl

theorem entry_said_iff (said : key ≠ .text "not") : Entry (key, spec) ↔ entryFault? (key, spec) = none := by
  cases key with
  | text name =>
    rw [entryFault?]
    · cases spelled : Field.ofSpelling? name with
      | none =>
        refine ⟨fun entry => ?_, nofun⟩
        cases entry with
        | negation => exact absurd rfl said
        | field known => cases spelled.symm.trans known
      | some f =>
        rw [specFault?_eq_none]
        constructor
        · intro entry
          cases entry with
          | negation => exact absurd rfl said
          | field _ fine => exact fine
        · exact .field spelled
    all_goals simp_all
  | _ => exact ⟨nofun, nofun⟩

theorem entry_negated_iff : Entry (.text "not", v) ↔ Document v := by
  constructor
  · intro entry
    cases entry with
    | negation document => exact document
    | field spelled => cases spelled
  · exact .negation

/-- What is reported of an entry that says something of a field, and of those that come after it. -/
theorem findSome?_said (said : key ≠ .text "not") :
    (entriesWithin ((key, spec) :: rest)).findSome? entryFault? =
      (entryFault? (key, spec)).or ((entriesWithin rest).findSome? entryFault?) := by
  rw [entriesWithin, List.findSome?_cons]
  · cases entryFault? (key, spec) <;> rfl
  · rintro v same
    exact said (congrArg Prod.fst same)

/-- The same of an entry that negates a value. -/
theorem findSome?_negated (present : spec ≠ .null) :
    (entriesWithin ((.text "not", spec) :: rest)).findSome? entryFault? =
      (firstFault? spec).or ((entriesWithin rest).findSome? entryFault?) := by
  have negation : entryFault? (.text "not", spec) = documentFault? spec := by
    rw [entryFault?]
    exact present
  rw [entriesWithin, List.findSome?_cons, List.findSome?_append, negation, firstFault?]
  cases documentFault? spec <;> rfl

end Entry

/-- A fault of a condition tells of an unknown field or a malformation, but of a value that has no text. -/
def Refuses (v : Value) (fault : Fault) : Prop :=
  (∃ field, fault = .unknownField field) ∨ (∃ cause, fault = .malformed cause none) ∨ fault = .unsuitable ∧ v.Untold

section Refusal

variable {f : Field} {v : Value} {fault : Fault}

theorem Refuses.within {w : Value} (refuses : Refuses v fault) (inside : v.Untold → w.Untold) : Refuses w fault :=
  refuses.imp id (.imp id (.imp id inside))

theorem refuses_telling {s : Scalar} {make : String → Fault} (made : ∀ t, Refuses (.scalar s) (make t)) :
    Refuses (.scalar s) (.telling s.written? make) := by
  unfold Fault.telling
  split
  · exact made _
  · next absent => exact .inr (.inr ⟨rfl, Scalar.written?_eq_none_iff.mp absent⟩)

theorem literalFault?_cases (faulty : literalFault? v = some fault) : Refuses v fault := by
  rw [literalFault?] at faulty
  split at faulty
  · cases faulty
  · next untold =>
    cases faulty
    exact .inr (.inr ⟨rfl, Value.quoted?_eq_none_iff v |>.mp (by simpa using untold)⟩)

theorem comparisonFault?_cases (faulty : comparisonFault? f v = some fault) : Refuses v fault := by
  unfold comparisonFault? at faulty
  split at faulty
  · cases faulty
  · exact (literalFault?_cases faulty).within (.value (List.mem_singleton_self _))
  · exact (literalFault?_cases faulty).within (.value (List.mem_singleton_self _))
  · cases faulty
    exact .inr (.inl ⟨_, rfl⟩)
  · cases faulty
    exact (refuses_telling fun _ => .inr (.inl ⟨_, rfl⟩)).within (.key (List.mem_singleton_self _))
  · cases faulty
    exact .inr (.inl ⟨_, rfl⟩)

theorem specFault?_cases (faulty : specFault? f v = some fault) : Refuses v fault := by
  unfold specFault? at faulty
  split at faulty
  · cases faulty
  · cases faulty
  · exact (comparisonFault?_cases faulty).within (.value (List.mem_singleton_self _))
  · exact (comparisonFault?_cases faulty).within (.value (List.mem_singleton_self _))
  · exact comparisonFault?_cases faulty
  · cases faulty
    exact .inr (.inl ⟨_, rfl⟩)

theorem documentFault?_malformed (faulty : documentFault? v = some fault) : ∃ cause, fault = .malformed cause none := by
  unfold documentFault? at faulty
  split at faulty <;> cases faulty <;> exact ⟨_, rfl⟩

theorem entryFault?_cases {e : Scalar × Value} (faulty : entryFault? e = some fault) : Refuses (.mapping [e]) fault := by
  unfold entryFault? at faulty
  split at faulty
  · cases faulty
    exact .inr (.inl ⟨_, rfl⟩)
  · exact .inr (.inl (documentFault?_malformed faulty))
  · split at faulty
    · exact (specFault?_cases faulty).within (.value (List.mem_singleton_self _))
    · cases faulty
      exact .inl ⟨_, rfl⟩
  · cases faulty
    exact (refuses_telling fun t => .inl ⟨t, rfl⟩).within (.key (List.mem_singleton_self _))

mutual

theorem untold_of_mem_entriesOf {e : Scalar × Value} (untold : (Value.mapping [e]).Untold) :
    ∀ v : Value, e ∈ entriesOf v → v.Untold
  | .scalar _, member | .list _, member => absurd member List.not_mem_nil
  | .mapping es, member => untold_of_mem_entriesWithin untold es member

theorem untold_of_mem_entriesWithin {e : Scalar × Value} (untold : (Value.mapping [e]).Untold) :
    ∀ es : Entries, e ∈ entriesWithin es → (Value.mapping es).Untold
  | [], member => absurd member List.not_mem_nil
  | (key, spec) :: rest, member => by
    have later (member : e ∈ entriesWithin rest) : (Value.mapping ((key, spec) :: rest)).Untold := by
      have below := untold_of_mem_entriesWithin untold rest member
      rw [Value.untold_mapping_iff] at below ⊢
      exact List.exists_mem_cons_of_exists below
    have here (same : e = (key, spec)) : (Value.mapping ((key, spec) :: rest)).Untold := by
      have alone : (Value.scalar key).Untold ∨ spec.Untold := by
        simpa [same] using Value.untold_mapping_iff.mp untold
      exact Value.untold_mapping_iff.mpr (List.exists_mem_cons_of _ alone)
    by_cases negation : key = .text "not"
    · subst negation
      rw [entriesWithin, List.mem_cons, List.mem_append] at member
      rcases member with same | below | after
      · exact here same
      · exact .value List.mem_cons_self (untold_of_mem_entriesOf untold spec below)
      · exact later after
    · rw [entriesWithin, List.mem_cons] at member
      · exact member.elim here later
      · rintro v same
        exact negation (congrArg Prod.fst same)

end

theorem firstFault?_cases (faulty : firstFault? v = some fault) : Refuses v fault := by
  rcases Option.or_eq_some_iff.mp faulty with here | ⟨-, below⟩
  · exact .inr (.inl (documentFault?_malformed here))
  · obtain ⟨e, member, found⟩ := List.exists_of_findSome?_eq_some below
    exact (entryFault?_cases found).within fun untold => untold_of_mem_entriesOf untold v member

end Refusal

mutual

theorem ofValue_reports : ∀ v : Value, v ≠ .null → Reports (Predicate.ofValue v) (firstFault? v)
  | .scalar .null, present => absurd rfl present
  | .scalar (.bool _), _ | .scalar (.int _), _ | .scalar (.float _), _ | .scalar (.text _), _ => rfl
  | .scalar (.date _), _ | .scalar (.moment _), _ | .scalar (.bytes _), _ => rfl
  | .list _, _ => rfl
  | .mapping [], _ => rfl
  | .mapping (e :: es), _ => by
    have within := (ofEntries_reports (e :: es)).map fun ps => some (Predicate.conjunction ps)
    have read : Predicate.ofValue (.mapping (e :: es)) =
        (fun ps => some (Predicate.conjunction ps)) <$> Predicate.ofEntries (e :: es) := by
      rw [Predicate.ofValue]
      cases Predicate.ofEntries (e :: es) <;> rfl
    rw [read]
    exact within

theorem ofEntries_reports : ∀ es : Entries,
    Reports (Predicate.ofEntries es) ((entriesWithin es).findSome? entryFault?)
  | [] => ⟨[], rfl⟩
  | (key, spec) :: rest => by
    have later := ofEntries_reports rest
    by_cases negation : key = .text "not"
    · subst negation
      by_cases nothing : spec = .null
      · subst nothing
        rfl
      · rw [ofEntries_negated nothing, findSome?_negated nothing]
        exact (ofValue_reports spec nothing).andThen later _
    · rw [ofEntries_said negation, findSome?_said negation]
      exact (entry_reports negation).andThen later _

end

mutual

theorem document_iff : ∀ v : Value, Document v ↔ firstFault? v = none
  | .scalar s => ⟨nofun, by cases s <;> nofun⟩
  | .list items => ⟨nofun, nofun⟩
  | .mapping [] => ⟨nofun, nofun⟩
  | .mapping (e :: es) => by
    have within := entries_iff (e :: es)
    rw [firstFault?, documentFault?, Option.none_or, entriesOf, ← within]
    constructor
    · rintro ⟨each⟩
      exact each
    · exact .entries

theorem entries_iff : ∀ es : Entries, (∀ e ∈ es, Entry e) ↔ (entriesWithin es).findSome? entryFault? = none
  | [] => by simp [entriesWithin]
  | (key, spec) :: rest => by
    rw [List.forall_mem_cons, entries_iff rest]
    by_cases negation : key = .text "not"
    · subst negation
      by_cases nothing : spec = .null
      · subst nothing
        refine ⟨?_, nofun⟩
        rintro ⟨⟨⟨⟩⟩ | ⟨⟨⟩⟩, -⟩
      · rw [findSome?_negated nothing, Option.or_eq_none_iff, ← document_iff spec, entry_negated_iff]
    · rw [findSome?_said negation, Option.or_eq_none_iff, entry_said_iff negation]

end

end Etymology.Conditional
