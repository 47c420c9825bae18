import Etymology.Proofs.Primitive.WellFormed

namespace Etymology

def Place.name : Place → String
  | .first => "first"
  | .last => "last"
  | .all => "all"

theorem Place.ofValue?_name (place : Place) : Place.ofValue? (.text place.name) = some place := by
  cases place <;> rfl

def Arranged.value : Arranged → Value
  | .position n => .int n
  | .text s => .text s

/-- A value gives the letters of a word, one by one or as a text that is to be split. -/
inductive Spells : Value → Word → Prop
  | letters (w : Word) : Spells (.list (w.letters.map .text)) w
  | text (s : String) : Spells (.text s) (.ofText s)

theorem Word.ofLetters_of_complete {w : Word} (complete : ∀ l ∈ w.letters, l ≠ "") : Word.ofLetters w.letters = w := by
  rw [Word.ofLetters, List.filter_eq_self.mpr fun l member => by simpa using complete l member]

/-- The arguments of a kind that are sequences of letters. -/
def PrimitiveKind.sequenceKeys : PrimitiveKind → List String
  | .letterReplace | .matchReplace => ["old", "new"]
  | .letterRemove | .double | .dedouble => ["letter"]
  | .append | .prepend => ["value"]
  | .letterArray | .loanword | .script => []

namespace Primitive

def kind : Primitive → PrimitiveKind
  | .letterReplace .. => .letterReplace
  | .letterRemove .. => .letterRemove
  | .double .. => .double
  | .dedouble .. => .dedouble
  | .append .. => .append
  | .prepend .. => .prepend
  | .matchReplace .. => .matchReplace
  | .letterArray .. => .letterArray
  | .loanword => .loanword
  | .script .. => .script

/-- The sequences of letters that a primitive is made of. -/
def words : Primitive → List Word
  | .letterReplace old new _ | .matchReplace old new => [old, new]
  | .letterRemove w _ | .append w | .prepend w => [w]
  | .double letter _ | .dedouble letter _ => [⟨[letter]⟩]
  | .letterArray _ | .loanword | .script _ => []

/-- The arguments that define a primitive, with the sequence under each key as `spell` writes it. -/
def arguments (spell : String → Word → Value) : Primitive → Entries
  | .letterReplace old new place =>
    [(.text "old", spell "old" old), (.text "new", spell "new" new), (.text "replace", .text place.name)]
  | .letterRemove old place => [(.text "letter", spell "letter" old), (.text "position", .text place.name)]
  | .double letter place | .dedouble letter place =>
    [(.text "letter", spell "letter" ⟨[letter]⟩), (.text "position", .text place.name)]
  | .append added | .prepend added => [(.text "value", spell "value" added)]
  | .matchReplace old new => [(.text "old", spell "old" old), (.text "new", spell "new" new)]
  | .letterArray items => [(.text "letters", .list (items.map Arranged.value))]
  | .loanword => []
  | .script file => [(.text "file", .text file)]

/-- A primitive that can do something, and whose letters are all there. -/
structure Printable (p : Primitive) : Prop where
  wellFormed : p.WellFormed
  letters : ∀ w ∈ p.words, ∀ l ∈ w.letters, l ≠ ""

section Reading

variable {kind : PrimitiveKind} {args others : Entries} {key : String} {v : Value} {w : Word} {mayBeEmpty : Bool}

theorem ofValue_document : ofValue (document kind args) = ofMapping kind args :=
  ofValue_named kind (.mapping args)

theorem wordArg_of_spells (found : args.get? key = some v) (spells : Spells v w) (complete : ∀ l ∈ w.letters, l ≠ "")
    (fine : w.letters = [] → mayBeEmpty = true) : wordArg kind args key mayBeEmpty = .ok w := by
  refine map_eq_ok.mpr ?_
  -- Only a text can be refused as empty, and it has no letters then.
  cases spells with
  | letters =>
    exact ⟨_, spelling_eq_ok_iff.mpr (.inr ⟨w.letters, found, rfl⟩), (Word.ofLetters_of_complete complete).symm⟩
  | text s =>
    refine ⟨_, spelling_eq_ok_iff.mpr (.inl ⟨s, found, fun empty => fine ?_, rfl⟩), rfl⟩
    rw [String.isEmpty_iff.mp empty]
    exact splitLetters_empty

theorem letterArg_of_spells {l : String} (found : args.get? key = some v) (spells : Spells v ⟨[l]⟩) :
    letterArg kind args key = .ok l := by
  refine bind_eq_ok.mpr ?_
  generalize single : Word.mk [l] = w at spells
  cases spells with
  | letters =>
    subst single
    exact ⟨_, spelling_eq_ok_iff.mpr (.inr ⟨[l], found, rfl⟩), rfl⟩
  | text s =>
    have letters : splitLetters s = [l] := (congrArg Word.letters single).symm
    refine ⟨_, spelling_eq_ok_iff.mpr (.inl ⟨s, found, fun empty => ?_, rfl⟩), ?_⟩
    · rw [String.isEmpty_iff.mp empty, splitLetters_empty] at letters
      cases letters
    · simp only [letters]

theorem placeArg_of_name {place : Place} (found : args.getD key = .text place.name) :
    placeArg kind args key = .ok place := by
  rw [placeArg, found, Place.ofValue?_name]

theorem wordArg_congr (same : args.get? key = others.get? key) :
    wordArg kind args key mayBeEmpty = wordArg kind others key mayBeEmpty := by
  rw [wordArg, spellingArg, same]
  rfl

theorem placeArg_congr (same : args.getD key = others.getD key) : placeArg kind args key = placeArg kind others key := by
  rw [placeArg, same]
  rfl

end Reading

section Printing

variable {p : Primitive} {spell : String → Word → Value}

theorem arrangedOf_value {item : Arranged} (fine : ∀ n, item = .position n → 0 ≤ n) : arrangedOf item.value = .ok item := by
  cases item with
  | position n => exact if_neg (Int.not_lt.mpr (fine n rfl))
  | text s => rfl

theorem letterArrayOf_value {items : List Arranged} (fine : WellFormed (.letterArray items)) :
    letterArrayOf (.mapping (arguments spell (.letterArray items))) = .ok (.letterArray items) := by
  obtain ⟨some, positions⟩ := fine
  have each : (items.map Arranged.value).mapM arrangedOf = .ok items := by
    rw [mapM_eq_ok_iff, List.forall₂_map_left_iff, List.forall₂_same]
    intro item member
    exact arrangedOf_value fun n same => positions n (same ▸ member)
  obtain ⟨first, rest, rfl⟩ := List.exists_cons_of_ne_nil some
  have read : letterArrayOf (.mapping (arguments spell (.letterArray (first :: rest)))) =
      ((first :: rest).map Arranged.value).mapM arrangedOf >>= fun items => return .letterArray items := rfl
  rw [read, each]
  rfl

/-- A primitive that is written is read back, however its sequences are spelled. -/
theorem ofValue_arguments (printable : p.Printable) (spells : ∀ key w, Spells (spell key w) w) :
    ofValue (document p.kind (p.arguments spell)) = .ok p := by
  obtain ⟨fine, complete⟩ := printable
  rw [ofValue_document]
  cases p with
  | letterReplace old new place =>
    -- A replacement is written without `letter`, and so its sequences are looked up among the arguments.
    have alone : Entries.getD (arguments spell (.letterReplace old new place)) "letter" = .null := rfl
    refine (letterReplaceOf_alone alone).trans ?_
    refine bind_eq_ok.mpr ⟨old, ?_, bind_eq_ok.mpr ⟨new, ?_, bind_eq_ok.mpr ⟨place, placeArg_of_name rfl, rfl⟩⟩⟩
    · exact wordArg_of_spells rfl (spells "old" old) (complete old List.mem_cons_self) fun none => absurd none fine
    · exact wordArg_of_spells rfl (spells "new" new) (complete new (List.mem_cons_of_mem _ List.mem_cons_self)) fun _ => rfl
  | letterRemove old place =>
    refine bind_eq_ok.mpr ⟨old, ?_, bind_eq_ok.mpr ⟨place, placeArg_of_name rfl, rfl⟩⟩
    exact wordArg_of_spells rfl (spells "letter" old) (complete old List.mem_cons_self) fun none => absurd none fine
  | double letter place =>
    refine bind_eq_ok.mpr ⟨letter, ?_, bind_eq_ok.mpr ⟨place, placeArg_of_name rfl, rfl⟩⟩
    exact letterArg_of_spells rfl (spells "letter" ⟨[letter]⟩)
  | dedouble letter place =>
    refine bind_eq_ok.mpr ⟨letter, ?_, bind_eq_ok.mpr ⟨place, placeArg_of_name rfl, rfl⟩⟩
    exact letterArg_of_spells rfl (spells "letter" ⟨[letter]⟩)
  | append added =>
    refine bind_eq_ok.mpr ⟨added, ?_, rfl⟩
    exact wordArg_of_spells rfl (spells "value" added) (complete added List.mem_cons_self) fun none => absurd none fine
  | prepend added =>
    refine bind_eq_ok.mpr ⟨added, ?_, rfl⟩
    exact wordArg_of_spells rfl (spells "value" added) (complete added List.mem_cons_self) fun none => absurd none fine
  | matchReplace old new =>
    refine bind_eq_ok.mpr ⟨old, ?_, bind_eq_ok.mpr ⟨new, ?_, rfl⟩⟩
    · exact wordArg_of_spells rfl (spells "old" old) (complete old List.mem_cons_self) fun none => absurd none fine
    · exact wordArg_of_spells rfl (spells "new" new) (complete new (List.mem_cons_of_mem _ List.mem_cons_self)) fun _ => rfl
  | letterArray items => exact letterArrayOf_value fine
  | loanword => rfl
  | script file =>
    refine bind_eq_ok.mpr ⟨.text file, spelling_eq_ok_iff.mpr (.inl ⟨file, rfl, fun empty => ?_, rfl⟩), rfl⟩
    exact absurd (String.isEmpty_iff.mp empty) fine

end Printing

section Alternatives

variable {kind : PrimitiveKind} {args others inner : Entries} {key other : String} {t : String} {mayBeEmpty : Bool}

/-- It makes no difference whether the two sequences of a replacement stand among its arguments or by themselves. -/
theorem ofValue_apart (alone : args.getD "letter" = .null) (apart : others.getD "letter" = .mapping inner)
    (old : inner.get? "old" = args.get? "old") (new : inner.get? "new" = args.get? "new")
    (place : others.getD "replace" = args.getD "replace") :
    ofValue (document .letterReplace others) = ofValue (document .letterReplace args) := by
  rw [ofValue_document, ofValue_document, ofMapping, ofMapping, letterReplaceOf_alone alone, letterReplaceOf_apart apart,
    letterReplaceFrom, letterReplaceFrom, wordArg_congr old, wordArg_congr new, placeArg_congr place]

/-- Arguments that are the same but for one sequence, which is a text in the one and a list of its letters in the
other. -/
structure Resplit (key t : String) (args others : Entries) : Prop where
  text : args.get? key = some (.text t)
  letters : others.get? key = some (.list ((splitLetters t).map .text))
  elsewhere : ∀ other, other ≠ key → others.get? other = args.get? other

theorem Resplit.getD_eq (resplit : Resplit key t args others) (different : other ≠ key) :
    others.getD other = args.getD other := by
  rw [Entries.getD, Entries.getD, resplit.elsewhere other different]

theorem Resplit.wordArg_eq (resplit : Resplit key t args others) (fine : other = key → t = "" → mayBeEmpty = true) :
    wordArg kind others other mayBeEmpty = wordArg kind args other mayBeEmpty := by
  by_cases here : other = key
  · subst here
    have complete : ∀ l ∈ (Word.ofText t).letters, l ≠ "" := fun l => ne_empty_of_mem_splitLetters
    have full (none : (Word.ofText t).letters = []) : mayBeEmpty = true := by
      by_contra refused
      exact splitLetters_ne_nil (fun empty => refused (fine rfl empty)) none
    rw [wordArg_of_spells resplit.text (.text t) complete full,
      wordArg_of_spells resplit.letters (.letters (.ofText t)) complete full]
  · exact wordArg_congr (resplit.elsewhere other here)

/-- An empty text is refused where a sequence is required, and so the sequence in question is not empty. -/
theorem Resplit.requiredArg_eq (resplit : Resplit key t args others) (fine : t = "" → key = "new")
    (required : other ≠ "new") : wordArg kind others other = wordArg kind args other :=
  resplit.wordArg_eq fun here none => absurd (here.trans (fine none)) required

theorem Resplit.letterArg_eq (resplit : Resplit key t args others) (fine : t = "" → key = "new")
    (required : key ≠ "new") : letterArg kind others key = letterArg kind args key := by
  have some : t ≠ "" := fun none => required (fine none)
  have text : spellingArg kind args key = .ok (.text t) :=
    spelling_eq_ok_iff.mpr (.inl ⟨t, resplit.text, fun empty => absurd (String.isEmpty_iff.mp empty) some, rfl⟩)
  have letters : spellingArg kind others key = .ok (.letters (splitLetters t)) :=
    spelling_eq_ok_iff.mpr (.inr ⟨_, resplit.letters, rfl⟩)
  rw [letterArg, letterArg, text, letters]
  rfl

theorem Resplit.replacement_eq (resplit : Resplit key t args others)
    (member : key ∈ PrimitiveKind.sequenceKeys .letterReplace) (fine : t = "" → key = "new") :
    letterReplaceOf others = letterReplaceOf args := by
  have different {other : String} (outside : other ∉ PrimitiveKind.sequenceKeys .letterReplace) : other ≠ key :=
    fun same => outside (same ▸ member)
  have place : placeArg .letterReplace others "replace" = placeArg .letterReplace args "replace" :=
    placeArg_congr (resplit.getD_eq (different (by decide)))
  have old : wordArg .letterReplace others "old" = wordArg .letterReplace args "old" :=
    resplit.requiredArg_eq fine (by decide)
  have new : wordArg .letterReplace others "new" true = wordArg .letterReplace args "new" true :=
    resplit.wordArg_eq fun _ _ => rfl
  rw [letterReplaceOf_eq, letterReplaceOf_eq, resplit.getD_eq (different (by decide))]
  split
  · rw [letterReplaceFrom, letterReplaceFrom, old, new, place]
  · rw [letterReplaceFrom, letterReplaceFrom, place]
  · rfl

/-- A text in the place of a sequence is read as the list of its letters. -/
theorem Resplit.ofValue_eq (resplit : Resplit key t args others) (member : key ∈ kind.sequenceKeys)
    (fine : t = "" → key = "new") : ofValue (document kind others) = ofValue (document kind args) := by
  rw [ofValue_document, ofValue_document]
  cases kind with
  | letterReplace => exact resplit.replacement_eq member fine
  | letterRemove =>
    obtain rfl := List.mem_singleton.mp member
    have old : wordArg .letterRemove others "letter" = wordArg .letterRemove args "letter" :=
      resplit.requiredArg_eq fine (by decide)
    rw [ofMapping, ofMapping, old, placeArg_congr (resplit.getD_eq (by decide))]
  | double =>
    obtain rfl := List.mem_singleton.mp member
    rw [ofMapping, ofMapping, resplit.letterArg_eq fine (by decide), placeArg_congr (resplit.getD_eq (by decide))]
  | dedouble =>
    obtain rfl := List.mem_singleton.mp member
    rw [ofMapping, ofMapping, resplit.letterArg_eq fine (by decide), placeArg_congr (resplit.getD_eq (by decide))]
  | append =>
    obtain rfl := List.mem_singleton.mp member
    have added : wordArg .append others "value" = wordArg .append args "value" :=
      resplit.requiredArg_eq fine (by decide)
    rw [ofMapping, ofMapping, added]
  | prepend =>
    obtain rfl := List.mem_singleton.mp member
    have added : wordArg .prepend others "value" = wordArg .prepend args "value" :=
      resplit.requiredArg_eq fine (by decide)
    rw [ofMapping, ofMapping, added]
  | matchReplace =>
    have old : wordArg .matchReplace others "old" = wordArg .matchReplace args "old" :=
      resplit.requiredArg_eq fine (by decide)
    have new : wordArg .matchReplace others "new" true = wordArg .matchReplace args "new" true :=
      resplit.wordArg_eq fun _ _ => rfl
    rw [ofMapping, ofMapping, old, new]
  | letterArray => cases member
  | loanword => cases member
  | script => cases member

end Alternatives

/-- A primitive that is written is read back, whether its sequences are spelled letter by letter or as texts that split
into them. A replacement is read alike with its sequences among its arguments and in a mapping of their own, and a
text in the place of a sequence is read as the list of the letters that it splits into. -/
theorem printed_read_back :
    (∀ (p : Primitive) (spell : String → Word → Value), p.Printable → (∀ key w, Spells (spell key w) w) →
      ofValue (document p.kind (p.arguments spell)) = .ok p) ∧
      (∀ flat nested inner : Entries, flat.getD "letter" = .null → nested.getD "letter" = .mapping inner →
        inner.get? "old" = flat.get? "old" → inner.get? "new" = flat.get? "new" →
        nested.getD "replace" = flat.getD "replace" →
        ofValue (document .letterReplace nested) = ofValue (document .letterReplace flat)) ∧
      ∀ (kind : PrimitiveKind) (key t : String) (text list : Entries), key ∈ kind.sequenceKeys → (t = "" → key = "new") →
        text.get? key = some (.text t) → list.get? key = some (.list ((splitLetters t).map .text)) →
        (∀ other, other ≠ key → list.get? other = text.get? other) →
        ofValue (document kind list) = ofValue (document kind text) := by
  refine ⟨fun p spell => ofValue_arguments, fun flat nested inner => ofValue_apart, ?_⟩
  intro kind key t text list member fine here letters elsewhere
  exact Resplit.ofValue_eq ⟨here, letters, elsewhere⟩ member fine

/-- One letter is of two characters, and the other would be composed if it stood in a text. -/
def umlaut : Primitive :=
  .letterReplace ⟨["rw", "u\u0308"]⟩ ⟨[]⟩ .last

/-- Writes one word as a text and all others letter by letter. -/
def textFor (s _key : String) (w : Word) : Value :=
  if w = .ofText s then .text s else .list (w.letters.map .text)

theorem spells_textFor (s key : String) (w : Word) : Spells (textFor s key w) w := by
  rw [textFor]
  split
  · next same => exact same ▸ .text s
  · exact .letters w

/-- The list keeps its letters. A replacement by a number is refused in both forms, and so are two letters to double as
a list and as a text. -/
theorem umlaut_read_back :
    umlaut.Printable ∧
      ofValue (.mapping [(.text "letter_replace", .mapping [(.text "old", .list [.text "rw", .text "u\u0308"]),
        (.text "new", .list []), (.text "replace", .text "last")])]) = .ok umlaut ∧
      ofValue (document .letterReplace [(.text "letter", .mapping [(.text "old", .text "a"), (.text "new", .int 1)])]) =
        ofValue (document .letterReplace [(.text "old", .text "a"), (.text "new", .int 1)]) ∧
      Printable (.append (.ofText "rwa")) ∧
      ofValue (.mapping [(.text "postfix", .mapping [(.text "value", .text "rwa")])]) = .ok (.append ⟨["r", "w", "a"]⟩) ∧
      ofValue (document .double [(.text "letter", .list [.text "r", .text "w"])]) =
        ofValue (document .double [(.text "letter", .text "rw")]) := by
  have printable : umlaut.Printable := ⟨List.cons_ne_nil _ _, by decide⟩
  have letters : Word.ofText "rwa" = ⟨["r", "w", "a"]⟩ := by decide
  have added : Printable (.append (.ofText "rwa")) := by
    rw [letters]
    exact ⟨List.cons_ne_nil _ _, by decide⟩
  refine ⟨printable, ?_, ?_, added, ?_, ?_⟩
  · exact printed_read_back.1 umlaut (fun _ w => .list (w.letters.map .text)) printable fun _ => .letters
  · exact printed_read_back.2.1 _ _ _ rfl rfl rfl rfl rfl
  · rw [← letters]
    exact printed_read_back.1 (.append (.ofText "rwa")) (textFor "rwa") added (spells_textFor "rwa")
  · refine printed_read_back.2.2 .double "letter" "rw" _ _ (by decide) (by decide) rfl rfl fun other different => ?_
    simp [Entries.get?, different.symm]

end Primitive

end Etymology
