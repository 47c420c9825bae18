import Etymology.Proofs.Escape
import Etymology.Proofs.Lexis.Definition

namespace Etymology

namespace Lexis

section Fields

variable {id key : String} {entries : Entries} {v : Value}

/-- What is checked of an entry before any text is read from it. -/
structure Checked (id : String) (entries : Entries) : Prop where
  word : ∃ u, checkWord id (entries.getD "word") = .ok u
  pos : ∃ pos, posOf id (entries.getEither "part_of_speech" "pos") = .ok pos
  archaic : ∃ archaic, archaicOf id entries = .ok archaic

/-- A field that is read as a text, or as a list of texts, has none. Tags that are refused hide the history. -/
inductive UntoldField (id : String) (entries : Entries) : Prop
  | word {items} : entries.getD "word" = .list items → (Value.list items).Untold → UntoldField id entries
  | language : (entries.getD "language").Untold → UntoldField id entries
  | kind : (entries.getEither "word_type" "type").Untold → UntoldField id entries
  | definition : (entries.getD "definition").Untold → UntoldField id entries
  | tags {items} : entries.getD "tags" = .list items → (Value.list items).Untold → UntoldField id entries
  | history {tags items} : textsOf id entries "tags" = .ok tags → entries.getD "historical_metadata" = .list items →
      (Value.list items).Untold → UntoldField id entries

theorem checkWord_escapes : Escapes Refused (checkWord id v) False := by
  unfold checkWord
  split
  · exact .ok ()
  · exact .ok ()
  · exact .ok ()
  · exact .refused (.document _) not_false

theorem posOf_escapes : Escapes Refused (posOf id v) False := by
  unfold posOf
  split
  · exact .ok _
  · exact .refused (.document _) not_false

theorem archaicOf_escapes : Escapes Refused (archaicOf id entries) False := by
  unfold archaicOf
  split
  · exact .ok _
  · exact .ok _
  · exact .refused (.document _) not_false

theorem texts_escapes {kinds : Fault → Prop} {items : List Value} :
    Escapes kinds (Fault.orUnsuitable (items.mapM Value.written?)) (∃ vs, Value.list items = .list vs ∧
      (Value.list vs).Untold) := by
  refine Escapes.orUnsuitable.congr ?_
  simp only [Value.mapM_written?_eq_none_iff, Value.list.injEq, exists_eq_left']

theorem wordOf_escapes : Escapes (fun _ => False) (wordOf v) (∃ items, v = .list items ∧ (Value.list items).Untold) := by
  unfold wordOf
  split
  · exact (Escapes.ok _).congr (by simp)
  · exact texts_escapes.bind_expected fun ls => .ok (some (Word.ofLetters ls))
  · next noList => exact (Escapes.ok _).congr (iff_of_false not_false fun ⟨items, same, _⟩ => noList items same)

theorem textOrEmpty_escapes : Escapes (fun _ => False) v.textOrEmpty v.Untold := by
  unfold Value.textOrEmpty
  split
  · next falsy =>
    refine (Escapes.ok _).congr (iff_of_false not_false fun untold => ?_)
    have truthy := untold.isTruthy
    simp [Value.isTruthy, falsy] at truthy
  · rw [← Value.written?_eq_none_iff]
    exact .orUnsuitable

theorem textsOf_escapes : Escapes Refused (textsOf id entries key)
    (∃ items, entries.getD key = .list items ∧ (Value.list items).Untold) := by
  unfold textsOf
  split
  · next text => exact (Escapes.ok _).congr (by simp [text])
  · next items list =>
    rw [list]
    exact texts_escapes
  · next noList =>
    have never : ¬ ∃ items, entries.getD key = .list items ∧ (Value.list items).Untold :=
      fun ⟨items, same, _⟩ => noList items same
    split
    · exact (Escapes.ok _).congr (iff_of_false not_false never)
    · exact .refused (.document _) never

theorem fieldsOf_escapes (id : String) (entries : Entries) :
    Escapes Refused (fieldsOf id entries) (Checked id entries ∧ UntoldField id entries) := by
  unfold fieldsOf
  refine Escapes.congr (.bind_checked checkWord_escapes fun _ => .bind_checked posOf_escapes fun pos =>
    .bind_checked archaicOf_escapes fun archaic => .bind_plain wordOf_escapes fun word =>
      .bind_plain textOrEmpty_escapes fun language => .bind_plain textOrEmpty_escapes fun kind =>
        .bind_plain textOrEmpty_escapes fun definition => .bind_alike textsOf_escapes fun tags =>
          .bind_expected textsOf_escapes fun history => .ok _) ?_
  constructor
  · rintro ⟨word, pos, archaic, ⟨_, list, untold⟩ | untold | untold | untold | ⟨_, list, untold⟩ |
      ⟨⟨_, read⟩, _, list, untold⟩⟩
    · exact ⟨⟨word, pos, archaic⟩, .word list untold⟩
    · exact ⟨⟨word, pos, archaic⟩, .language untold⟩
    · exact ⟨⟨word, pos, archaic⟩, .kind untold⟩
    · exact ⟨⟨word, pos, archaic⟩, .definition untold⟩
    · exact ⟨⟨word, pos, archaic⟩, .tags list untold⟩
    · exact ⟨⟨word, pos, archaic⟩, .history read list untold⟩
  · rintro ⟨⟨word, pos, archaic⟩, field⟩
    refine ⟨word, pos, archaic, ?_⟩
    cases field with
    | word list untold => exact .inl ⟨_, list, untold⟩
    | language untold => exact .inr (.inl untold)
    | kind untold => exact .inr (.inr (.inl untold))
    | definition untold => exact .inr (.inr (.inr (.inl untold)))
    | tags list untold => exact .inr (.inr (.inr (.inr (.inl ⟨_, list, untold⟩))))
    | history read list untold => exact .inr (.inr (.inr (.inr (.inr ⟨⟨_, read⟩, _, list, untold⟩))))

end Fields

/-- What names no transforms: a value that is neither a text, nor bytes, nor holds others, unless it counts as absent,
and whatever holds a name that has no text. -/
inductive NamesNothing : Value → Prop
  | scalar {s : Scalar} : (∀ t, s ≠ .text t) → (∀ bs, s ≠ .bytes bs) → s.isFalsy = false → NamesNothing (.scalar s)
  | items {items} : (Value.list items).Untold → NamesNothing (.list items)
  | keys {entries : Entries} : (∃ e ∈ entries, (Value.scalar e.1).Untold) → NamesNothing (.mapping entries)

/-- A link that is in order but for its ancestor, which has no text, or its transforms, which name nothing. -/
def IsNameless (v : Value) : Prop :=
  ∃ edge : Entries, v = .mapping edge ∧ (edge.getD "etymon").isFalsy = false ∧
    (∃ n, orderOf (edge.getD "agglutination_order") = .ok n) ∧
      ((edge.getD "etymon").Untold ∨ NamesNothing (edge.getD "transforms"))

theorem transformNames_eq_none {v : Value} : transformNames v = none ↔ NamesNothing v := by
  unfold transformNames
  split
  · refine iff_of_false nofun ?_
    rintro ⟨noText, -, -⟩
    exact noText _ rfl
  · refine iff_of_false nofun ?_
    rintro ⟨-, noBytes, -⟩
    exact noBytes _ rfl
  · rw [Value.mapM_written?_eq_none_iff]
    exact ⟨.items, fun | .items untold => untold⟩
  · simp only [Option.mapM_eq_none_iff, Scalar.written?_eq_none_iff]
    exact ⟨.keys, fun | .keys untold => untold⟩
  · next noText noBytes noList noMapping =>
    cases v with
    | list items => exact (noList items rfl).elim
    | mapping entries => exact (noMapping entries rfl).elim
    | scalar s =>
      have other : NamesNothing (.scalar s) ↔ s.isFalsy = false :=
        ⟨fun | .scalar _ _ present => present,
          .scalar (fun t same => noText t (congrArg _ same)) fun bs same => noBytes bs (congrArg _ same)⟩
      rw [other]
      cases falsy : s.isFalsy <;> simp [Value.isFalsy, falsy]

/-- What counts as absent names no transforms, but is expected. -/
theorem not_namesNothing_of_isFalsy {v : Value} (absent : v.isFalsy = true) : ¬ NamesNothing v := by
  rw [← transformNames_eq_none, transformNames_of_isFalsy absent]
  exact nofun

theorem etymonOf_escapes (id : String) (number : Nat) (v : Value) :
    Escapes Refused (etymonOf id number v) (IsNameless v) := by
  unfold etymonOf
  simp only
  split
  · next edge =>
    split
    · next absent =>
      refine .refused (.document _) ?_
      rintro ⟨_, ⟨⟩, present, -⟩
      simp [present] at absent
    · next present =>
      refine Escapes.congr (.bind_checked (.mapError fun _ => .document _) fun order =>
        .bind_plain .orUnsuitable fun ancestor => .bind_expected .orUnsuitable fun names => .ok _) ?_
      simp [IsNameless, present, mapError_eq_ok, Value.written?_eq_none_iff, transformNames_eq_none]
  · next other =>
    refine .refused (.document _) ?_
    rintro ⟨edge, same, -⟩
    exact other edge same

/-- A link that is reached is not as expected. -/
def ReachesNameless (id : String) : List Value → Nat → Prop :=
  Reaches (fun number v => do let _ ← etymonOf id number v; return number + 1) fun _ v => IsNameless v

theorem etymonsFrom_escapes (id : String) (number : Nat) (vs : List Value) :
    Escapes Refused (etymonsFrom id number vs) (ReachesNameless id vs number) := by
  induction vs generalizing number with
  | nil => exact (Escapes.ok _).congr (iff_of_false not_false not_reaches_nil)
  | cons v vs ih =>
    rw [etymonsFrom, ReachesNameless, reaches_cons]
    refine ((etymonOf_escapes id number v).bind fun e _ => (ih (number + 1)).bind_expected fun _ => .ok _).congr ?_
    refine or_congr_right ?_
    constructor
    · rintro ⟨e, read, later⟩
      exact ⟨number + 1, bind_eq_ok.mpr ⟨e, read, rfl⟩, later⟩
    · rintro ⟨n, step, later⟩
      obtain ⟨e, read, same⟩ := bind_eq_ok.mp step
      cases same
      exact ⟨e, read, later⟩

theorem etymonsOf_escapes (id : String) (v : Value) :
    Escapes Refused (etymonsOf id v) (∃ links, linkList v = .list links ∧ ReachesNameless id links 1) := by
  unfold etymonsOf
  simp only
  split
  · exact (Escapes.ok _).congr (by simp [linkList])
  · next links => exact (etymonsFrom_escapes id 1 links).congr (by simp [linkList])
  · next entries =>
    split
    · next links list => exact (etymonsFrom_escapes id 1 links).congr (by simp [linkList, list])
    · next other =>
      have never : ¬ ∃ links, linkList (.mapping entries) = .list links ∧ ReachesNameless id links 1 := by
        rintro ⟨links, same, -⟩
        exact other links same
      split
      · exact (Escapes.ok _).congr (iff_of_false not_false never)
      · exact .refused (.document _) never
  · next noNull noList noMapping =>
    refine .refused (.document _) ?_
    rintro ⟨links, same, -⟩
    cases v with
    | mapping entries => exact noMapping entries rfl
    | list items => exact noList items rfl
    | scalar s => cases same

/-- An entry has a field that has no text, or its fields can be read and it has a link that is not as expected. -/
def IsUnsuitable (id : String) (entries : Entries) : Prop :=
  Checked id entries ∧ UntoldField id entries ∨ (∃ x, fieldsOf id entries = .ok x) ∧
    ∃ links, linkList (entries.getD "etymology") = .list links ∧ ReachesNameless id links 1

theorem ofEntries_escapes (id : String) (entries : Entries) :
    Escapes Refused (ofEntries id entries) (IsUnsuitable id entries) :=
  .bind_alike (fieldsOf_escapes id entries) fun _ => .bind_expected (etymonsOf_escapes id _) fun _ => .ok _

/-- The fields of an entry stand apart from its etymology. -/
theorem fieldsOf_put (id : String) (entries : Entries) (v : Value) :
    fieldsOf id (entries.put (.text "etymology") v) = fieldsOf id entries := by
  rw [← fieldsOf_without, Entries.without_put, fieldsOf_without]

theorem untoldField_put {id : String} {entries : Entries} {v : Value} :
    Checked id (entries.put (.text "etymology") v) ∧ UntoldField id (entries.put (.text "etymology") v) ↔
      Checked id entries ∧ UntoldField id entries := by
  rw [← (fieldsOf_escapes id _).unsuitable, fieldsOf_put, (fieldsOf_escapes id entries).unsuitable]

/-- The one link of a derivative is in order if its parent has an id. -/
theorem reachesNameless_derivativeEtymology {id parent : String} {transforms : Value} :
    (∃ links, linkList (derivativeEtymology parent transforms) = .list links ∧ ReachesNameless id links 1) ↔
      parent ≠ "" ∧ NamesNothing transforms := by
  have list : linkList (derivativeEtymology parent transforms) = .list [.mapping [(.text "etymon", .text parent),
      (.text "transforms", if transforms.isFalsy then .list [] else transforms)]] := rfl
  have link : IsNameless (.mapping [(.text "etymon", .text parent),
      (.text "transforms", if transforms.isFalsy then .list [] else transforms)]) ↔
        (Value.text parent).isFalsy = false ∧ (∃ n, orderOf .null = .ok n) ∧
          ((Value.text parent).Untold ∨ NamesNothing (if transforms.isFalsy then .list [] else transforms)) := by
    constructor
    · rintro ⟨edge, same, order⟩
      obtain rfl := Value.mapping.inj same
      exact order
    · intro order
      exact ⟨_, rfl, order⟩
  have named : (Value.text parent).isFalsy = false ↔ parent ≠ "" := by
    simp [Value.text, Value.isFalsy, Scalar.isFalsy]
  have unordered : ∃ n, orderOf .null = .ok n := ⟨0, rfl⟩
  have told : ¬ (Value.text parent).Untold := by
    intro untold
    cases untold
  have orEmpty : NamesNothing (if transforms.isFalsy then .list [] else transforms) ↔ NamesNothing transforms := by
    split
    · next absent => exact iff_of_false (not_namesNothing_of_isFalsy rfl) (not_namesNothing_of_isFalsy absent)
    · rfl
  simp only [list, Value.list.injEq, exists_eq_left', ReachesNameless, reaches_cons, not_reaches_nil, and_false,
    exists_false, or_false, link, named, unordered, true_and, told, false_or, orEmpty]

end Lexis

end Etymology
