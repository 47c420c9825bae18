import Etymology.Primitive.Definition
import Etymology.Proofs.Control

namespace Etymology.Primitive

/-- Letters stand under a key: a text, which is not empty unless it may be, or a list of texts. -/
inductive Spelled (args : Entries) (key : String) (mayBeEmpty : Bool) : Prop
  | text {s : String} : args.get? key = some (.text s) → (s.isEmpty = true → mayBeEmpty = true) →
      Spelled args key mayBeEmpty
  | letters {ls : List String} : args.get? key = some (.list (ls.map .text)) → Spelled args key mayBeEmpty

/-- One letter stands under a key, as a text that is not split or as the only one of a list. -/
inductive OneLetter (args : Entries) (key : String) : Prop
  | text {s l : String} : args.get? key = some (.text s) → s.isEmpty = false → splitLetters s = [l] →
      OneLetter args key
  | letter {l : String} : args.get? key = some (.list [.text l]) → OneLetter args key

def Placed (args : Entries) (key : String) : Prop :=
  args.getD key = .text "first" ∨ args.getD key = .text "last" ∨ args.getD key = .text "all"

/-- Letters and positions from zero on, at least one. -/
inductive Arrangement : Value → Prop
  | items {first rest} : (∀ v ∈ first :: rest, (∃ s, v = .text s) ∨ ∃ n : Nat, v = .int n) →
      Arrangement (.list (first :: rest))

/-- The arguments that a kind takes. The two sequences of a replacement stand among them, or in a mapping of
their own under `letter`. -/
inductive Arguments : PrimitiveKind → Entries → Prop
  | letterReplace {args inner} : args.getD "letter" = .null ∧ inner = args ∨ args.getD "letter" = .mapping inner →
      Spelled inner "old" false → Spelled inner "new" true → Placed args "replace" → Arguments .letterReplace args
  | letterRemove {args} : Spelled args "letter" false → Placed args "position" → Arguments .letterRemove args
  | double {args} : OneLetter args "letter" → Placed args "position" → Arguments .double args
  | dedouble {args} : OneLetter args "letter" → Placed args "position" → Arguments .dedouble args
  | append {args} : Spelled args "value" false → Arguments .append args
  | prepend {args} : Spelled args "value" false → Arguments .prepend args
  | matchReplace {args} : Spelled args "old" false → Spelled args "new" true → Arguments .matchReplace args
  | letterArray {args} : Arrangement (args.getD "letters") → Arguments .letterArray args
  | loanword {args} : Arguments .loanword args
  | script {args s} : args.get? "file" = some (.text s) → s.isEmpty = false → Arguments .script args

/-- The name of one kind with its arguments. A loanword needs no arguments and takes any, and an arrangement may
stand for its only argument. -/
inductive Document : Value → Prop
  | bare : Document (.text "loanword")
  | arguments {kind : PrimitiveKind} {args} : Arguments kind args →
      Document (.mapping [(.text kind.name, .mapping args)])
  | loanword {v} : Document (.mapping [(.text PrimitiveKind.loanword.name, v)])
  | arrangement {v} : Arrangement v → Document (.mapping [(.text PrimitiveKind.letterArray.name, v)])

section Arguments

variable {kind : PrimitiveKind} {args : Entries} {key : String} {v : Value}

theorem spelling_eq_ok_iff {mayBeEmpty : Bool} {spelling : Spelling} :
    spellingArg kind args key mayBeEmpty = .ok spelling ↔
      (∃ s, args.get? key = some (.text s) ∧ (s.isEmpty = true → mayBeEmpty = true) ∧ spelling = .text s) ∨
        ∃ ls : List String, args.get? key = some (.list (ls.map .text)) ∧ spelling = .letters ls := by
  unfold spellingArg
  constructor
  · intro read
    split at read
    · cases read
    · next s found =>
      split at read
      · cases read
      · next fine =>
        cases read
        exact .inl ⟨s, found, by simpa using fine, rfl⟩
    · next items found =>
      split at read
      · next ls texts =>
        cases read
        obtain rfl := Value.texts?_eq_some.mp texts
        exact .inr ⟨ls, found, rfl⟩
      · cases read
    · cases read
  · rintro (⟨s, found, fine, rfl⟩ | ⟨ls, found, rfl⟩)
    · rw [found]
      exact if_neg (by simpa using fine)
    · simp only [found, Value.texts?_map_text]

theorem word_ok_iff {mayBeEmpty : Bool} :
    (∃ w, wordArg kind args key mayBeEmpty = .ok w) ↔ Spelled args key mayBeEmpty := by
  rw [wordArg, exists_map_eq_ok]
  constructor
  · rintro ⟨spelling, read⟩
    rcases spelling_eq_ok_iff.mp read with ⟨s, found, fine, -⟩ | ⟨ls, found, -⟩
    · exact .text found fine
    · exact .letters found
  · rintro (⟨found, fine⟩ | ⟨found⟩)
    · exact ⟨_, spelling_eq_ok_iff.mpr (.inl ⟨_, found, fine, rfl⟩)⟩
    · exact ⟨_, spelling_eq_ok_iff.mpr (.inr ⟨_, found, rfl⟩)⟩

theorem letter_ok_iff : (∃ l, letterArg kind args key = .ok l) ↔ OneLetter args key := by
  rw [letterArg, exists_bind_eq_ok]
  constructor
  · rintro ⟨spelling, read, l, single⟩
    rcases spelling_eq_ok_iff.mp read with ⟨s, found, fine, rfl⟩ | ⟨ls, found, rfl⟩
    · simp only at single
      split at single
      · next one => exact .text found (by simpa using fine) one
      · cases single
    · simp only at single
      split at single
      · next one => exact .letter found
      · cases single
  · rintro (⟨found, fine, one⟩ | ⟨found⟩)
    · refine ⟨_, spelling_eq_ok_iff.mpr (.inl ⟨_, found, by simp [fine], rfl⟩), ?_⟩
      simp only [one]
      exact ⟨_, rfl⟩
    · exact ⟨_, spelling_eq_ok_iff.mpr (.inr ⟨[_], found, rfl⟩), _, rfl⟩

theorem place_ok_iff : (∃ place, placeArg kind args key = .ok place) ↔ Placed args key := by
  unfold placeArg Placed
  constructor
  · rintro ⟨place, read⟩
    split at read
    · next place found =>
      unfold Place.ofValue? at found
      split at found
      · next same => exact .inl same
      · next same => exact .inr (.inl same)
      · next same => exact .inr (.inr same)
      · cases found
    · cases read
  · rintro (same | same | same) <;> rw [same] <;> exact ⟨_, rfl⟩

theorem arranged_ok_iff : (∃ item, arrangedOf v = .ok item) ↔ (∃ s, v = .text s) ∨ ∃ n : Nat, v = .int n := by
  constructor
  · rintro ⟨item, read⟩
    unfold arrangedOf at read
    split at read
    · next s => exact .inl ⟨s, rfl⟩
    · next n =>
      split at read
      · cases read
      · next natural =>
        obtain ⟨m, rfl⟩ := Int.eq_ofNat_of_zero_le (Int.not_lt.mp natural)
        exact .inr ⟨m, rfl⟩
    · cases read
  · rintro (⟨s, rfl⟩ | ⟨n, rfl⟩)
    · exact ⟨_, rfl⟩
    · simp only [Value.int, arrangedOf, if_neg (Int.not_lt.mpr (Int.natCast_nonneg n))]
      exact ⟨_, rfl⟩

/-- A replacement with its sequences read from where they stand. -/
def letterReplaceFrom (sequences args : Entries) : Except Fault Primitive := do
  let old ← wordArg .letterReplace sequences "old"
  let new ← wordArg .letterReplace sequences "new" true
  let place ← placeArg .letterReplace args "replace"
  return .letterReplace old new place

theorem letterReplaceOf_eq : letterReplaceOf args = match args.getD "letter" with
    | .scalar .null => letterReplaceFrom args args
    | .mapping inner => letterReplaceFrom inner args
    | _ => .error (.malformed .letterNotMapping none) := by
  unfold letterReplaceOf
  cases args.getD "letter" with
  | scalar s => cases s <;> rfl
  | list items => rfl
  | mapping inner => rfl

theorem letterReplaceOf_alone (alone : args.getD "letter" = .null) : letterReplaceOf args = letterReplaceFrom args args := by
  rw [letterReplaceOf_eq, alone]
  rfl

theorem letterReplaceOf_apart {inner : Entries} (apart : args.getD "letter" = .mapping inner) :
    letterReplaceOf args = letterReplaceFrom inner args := by
  rw [letterReplaceOf_eq, apart]

theorem letterReplaceFrom_ok_iff {sequences : Entries} : (∃ p, letterReplaceFrom sequences args = .ok p) ↔
    Spelled sequences "old" false ∧ Spelled sequences "new" true ∧ Placed args "replace" := by
  simp only [letterReplaceFrom, exists_bind_eq_ok, exists_pure_eq_ok, and_true, exists_and_right, word_ok_iff,
    place_ok_iff]

theorem letterReplace_ok_iff : (∃ p, letterReplaceOf args = .ok p) ↔ Arguments .letterReplace args := by
  constructor
  · intro read
    rw [letterReplaceOf_eq] at read
    split at read
    · next alone =>
      obtain ⟨old, new, place⟩ := letterReplaceFrom_ok_iff.mp read
      exact .letterReplace (.inl ⟨alone, rfl⟩) old new place
    · next inner apart =>
      obtain ⟨old, new, place⟩ := letterReplaceFrom_ok_iff.mp read
      exact .letterReplace (.inr apart) old new place
    · cases read.choose_spec
  · intro arguments
    cases arguments with
    | letterReplace sequences old new place =>
      rcases sequences with ⟨alone, rfl⟩ | apart
      · rw [letterReplaceOf_alone alone]
        exact letterReplaceFrom_ok_iff.mpr ⟨old, new, place⟩
      · rw [letterReplaceOf_apart apart]
        exact letterReplaceFrom_ok_iff.mpr ⟨old, new, place⟩

theorem letterArray_list_ok_iff {items : List Value} :
    (∃ p, letterArrayOf (.list items) = .ok p) ↔ Arrangement (.list items) := by
  cases items with
  | nil =>
    constructor
    · rintro ⟨p, read⟩
      cases read
    · rintro ⟨⟩
  | cons first rest =>
    simp only [letterArrayOf, exists_bind_eq_ok, exists_pure_eq_ok, and_true, exists_mapM_eq_ok, arranged_ok_iff]
    constructor
    · exact .items
    · rintro ⟨each⟩
      exact each

theorem letterArray_mapping_ok_iff :
    (∃ p, letterArrayOf (.mapping args) = .ok p) ↔ Arrangement (args.getD "letters") := by
  cases under : args.getD "letters" with
  | list items =>
    rw [← letterArray_list_ok_iff]
    simp only [letterArrayOf, under]
  | scalar s =>
    simp only [letterArrayOf, under]
    constructor
    · rintro ⟨p, read⟩
      cases read
    · rintro ⟨⟩
  | mapping es =>
    simp only [letterArrayOf, under]
    constructor
    · rintro ⟨p, read⟩
      cases read
    · rintro ⟨⟩

theorem script_ok_iff : (∃ p, scriptOf args = .ok p) ↔ Arguments .script args := by
  rw [scriptOf, exists_bind_eq_ok]
  constructor
  · rintro ⟨spelling, read, p, file⟩
    rcases spelling_eq_ok_iff.mp read with ⟨s, found, fine, rfl⟩ | ⟨ls, -, rfl⟩
    · exact .script found (by simpa using fine)
    · cases file
  · intro arguments
    cases arguments with
    | script found fine =>
      exact ⟨_, spelling_eq_ok_iff.mpr (.inl ⟨_, found, fun empty => absurd empty (by simp [fine]), rfl⟩), _, rfl⟩

theorem ofMapping_ok_iff : (∃ p, ofMapping kind args = .ok p) ↔ Arguments kind args := by
  cases kind with
  | letterReplace => exact letterReplace_ok_iff
  | letterArray => exact letterArray_mapping_ok_iff.trans ⟨.letterArray, fun | .letterArray list => list⟩
  | script => exact script_ok_iff
  | loanword => exact ⟨fun _ => .loanword, fun _ => ⟨_, rfl⟩⟩
  | letterRemove =>
    simp only [ofMapping, exists_bind_eq_ok, exists_pure_eq_ok, and_true, exists_and_right, word_ok_iff, place_ok_iff]
    exact ⟨fun ⟨letter, place⟩ => .letterRemove letter place, fun | .letterRemove letter place => ⟨letter, place⟩⟩
  | double =>
    simp only [ofMapping, exists_bind_eq_ok, exists_pure_eq_ok, and_true, exists_and_right, letter_ok_iff, place_ok_iff]
    exact ⟨fun ⟨letter, place⟩ => .double letter place, fun | .double letter place => ⟨letter, place⟩⟩
  | dedouble =>
    simp only [ofMapping, exists_bind_eq_ok, exists_pure_eq_ok, and_true, exists_and_right, letter_ok_iff, place_ok_iff]
    exact ⟨fun ⟨letter, place⟩ => .dedouble letter place, fun | .dedouble letter place => ⟨letter, place⟩⟩
  | append =>
    simp only [ofMapping, exists_bind_eq_ok, exists_pure_eq_ok, and_true, word_ok_iff]
    exact ⟨.append, fun | .append value => value⟩
  | prepend =>
    simp only [ofMapping, exists_bind_eq_ok, exists_pure_eq_ok, and_true, word_ok_iff]
    exact ⟨.prepend, fun | .prepend value => value⟩
  | matchReplace =>
    simp only [ofMapping, exists_bind_eq_ok, exists_pure_eq_ok, and_true, exists_and_right, word_ok_iff]
    exact ⟨fun ⟨old, new⟩ => .matchReplace old new, fun | .matchReplace old new => ⟨old, new⟩⟩

theorem not_spelled_nil {mayBeEmpty : Bool} : ¬ Spelled [] key mayBeEmpty := by
  rintro (found | found) <;> cases found

theorem not_oneLetter_nil : ¬ OneLetter [] key := by
  rintro (found | found) <;> cases found

/-- Without arguments nothing but a loanword is complete. -/
theorem arguments_nil_iff : Arguments kind [] ↔ kind = .loanword := by
  constructor
  · intro arguments
    cases arguments with
    | loanword => rfl
    | letterReplace sequences old =>
      rcases sequences with ⟨-, rfl⟩ | apart
      · exact absurd old not_spelled_nil
      · cases apart
    | letterRemove letter => exact absurd letter not_spelled_nil
    | double letter => exact absurd letter not_oneLetter_nil
    | dedouble letter => exact absurd letter not_oneLetter_nil
    | append value => exact absurd value not_spelled_nil
    | prepend value => exact absurd value not_spelled_nil
    | matchReplace old => exact absurd old not_spelled_nil
    | letterArray list => cases list
    | script found => cases found
  · rintro rfl
    exact .loanword

/-- What may stand beside the name of a kind. -/
theorem ofArguments_ok_iff : (∃ p, ofArguments kind v = .ok p) ↔
    (∃ args, v = .mapping args ∧ Arguments kind args) ∨ kind = .loanword ∨ kind = .letterArray ∧ Arrangement v := by
  constructor
  · intro read
    unfold ofArguments at read
    split at read
    · next args => exact .inl ⟨args, rfl, ofMapping_ok_iff.mp read⟩
    · exact .inr (.inl (arguments_nil_iff.mp (ofMapping_ok_iff.mp read)))
    · exact .inr (.inl rfl)
    · next unmapped present =>
      cases v with
      | list items => exact .inr (.inr ⟨rfl, letterArray_list_ok_iff.mp read⟩)
      | scalar s => cases read.choose_spec
      | mapping args => exact absurd rfl (unmapped args)
    · cases read.choose_spec
  · rintro (⟨args, rfl, arguments⟩ | rfl | ⟨rfl, ⟨each⟩⟩)
    · exact ofMapping_ok_iff.mpr arguments
    · exact ⟨.loanword, by cases v with
        | scalar s => cases s <;> rfl
        | list items => rfl
        | mapping args => rfl⟩
    · exact letterArray_list_ok_iff.mpr (.items each)

end Arguments

theorem ofValue_named (kind : PrimitiveKind) (v : Value) :
    ofValue (.mapping [(.text kind.name, v)]) = ofArguments kind v := by
  simp only [ofValue, PrimitiveKind.ofName?_name]

/-- Reading accepts the documents of primitives and no other values. -/
theorem ofValue_ok_iff {v : Value} : (∃ p, Primitive.ofValue v = .ok p) ↔ Document v := by
  constructor
  · intro read
    unfold Primitive.ofValue at read
    split at read
    · exact .bare
    · next key args =>
      split at read
      · next name =>
        split at read
        · next kind known =>
          obtain rfl := PrimitiveKind.ofName?_eq_some.mp known
          rcases ofArguments_ok_iff.mp read with ⟨args, rfl, arguments⟩ | rfl | ⟨rfl, arrangement⟩
          · exact .arguments arguments
          · exact .loanword
          · exact .arrangement arrangement
        · cases read.choose_spec
      · cases read.choose_spec
    · cases read.choose_spec
  · intro document
    cases document with
    | bare => exact ⟨_, rfl⟩
    | arguments arguments =>
      rw [ofValue_named]
      exact ofArguments_ok_iff.mpr (.inl ⟨_, rfl, arguments⟩)
    | loanword =>
      rw [ofValue_named]
      exact ofArguments_ok_iff.mpr (.inr (.inl rfl))
    | arrangement arrangement =>
      rw [ofValue_named]
      exact ofArguments_ok_iff.mpr (.inr (.inr ⟨rfl, arrangement⟩))

end Etymology.Primitive
