import Etymology.Proofs.Letters.Splitting
import Etymology.Proofs.Primitive.Grammar

namespace Etymology

/-- The argument whose letters a kind cannot do without. -/
def PrimitiveKind.requiredKey? : PrimitiveKind → Option String
  | .letterReplace | .matchReplace => some "old"
  | .letterRemove | .double | .dedouble => some "letter"
  | .append | .prepend => some "value"
  | .letterArray | .loanword | .script => none

namespace Primitive

/-- What is looked for or added has a letter, a letter by itself is not empty, an arrangement has entries but no
negative positions, and a script has a name. -/
def WellFormed : Primitive → Prop
  | .letterReplace old _ _ | .letterRemove old _ | .matchReplace old _ => old.letters ≠ []
  | .append added | .prepend added => added.letters ≠ []
  | .double letter _ | .dedouble letter _ => letter ≠ ""
  | .letterArray items => items ≠ [] ∧ ∀ n, .position n ∈ items → 0 ≤ n
  | .loanword => True
  | .script file => file ≠ ""

/-- The document of one kind with its arguments. -/
def document (kind : PrimitiveKind) (args : Entries) : Value :=
  .mapping [(.text kind.name, .mapping args)]

/-- Among the arguments of a replacement the sequences may stand in a mapping of their own. -/
def sequenceArgs (kind : PrimitiveKind) (args : Entries) : Entries :=
  match kind, args.getD "letter" with
  | .letterReplace, .mapping inner => inner
  | _, _ => args

/-- A list of texts that are all empty stands under a key. -/
def BlankAt (args : Entries) (key : String) : Prop :=
  ∃ ls : List String, args.get? key = some (.list (ls.map .text)) ∧ ∀ l ∈ ls, l = ""

/-- The letters that a kind cannot do without are given as a list, and none is there. -/
inductive Blank : Value → Prop
  | listed {kind : PrimitiveKind} {args key} : kind.requiredKey? = some key → BlankAt (sequenceArgs kind args) key →
      Blank (document kind args)

section

variable {kind : PrimitiveKind} {args : Entries} {key : String} {v : Value} {p : Primitive}

theorem sequenceArgs_alone (alone : args.getD "letter" = .null) : sequenceArgs .letterReplace args = args := by
  unfold sequenceArgs
  rw [alone]
  rfl

theorem sequenceArgs_apart {inner : Entries} (apart : args.getD "letter" = .mapping inner) :
    sequenceArgs .letterReplace args = inner := by
  unfold sequenceArgs
  rw [apart]

theorem not_blankAt_of_text {s : String} (found : args.get? key = some (.text s)) : ¬ BlankAt args key := by
  rintro ⟨ls, listed, -⟩
  rw [found] at listed
  cases listed

theorem blankAt_iff_of_list {ls : List String} (found : args.get? key = some (.list (ls.map .text))) :
    BlankAt args key ↔ ∀ l ∈ ls, l = "" := by
  constructor
  · rintro ⟨ls', listed, blank⟩
    rw [found] at listed
    simp only [Option.some.injEq, Value.list.injEq] at listed
    have texts := Value.texts?_map_text ls
    rw [listed, Value.texts?_map_text, Option.some.injEq] at texts
    exact texts ▸ blank
  · exact fun blank => ⟨ls, found, blank⟩

/-- A text that is not empty has a letter, and a list has one unless all that it holds is empty. -/
theorem word_ne_nil_iff {w : Word} (read : wordArg kind args key = .ok w) : w.letters ≠ [] ↔ ¬ BlankAt args key := by
  obtain ⟨spelling, found, rfl⟩ := map_eq_ok.mp read
  rcases spelling_eq_ok_iff.mp found with ⟨s, here, fine, rfl⟩ | ⟨ls, here, rfl⟩
  · have given : s ≠ "" := fun empty => absurd (fine (String.isEmpty_iff.mpr empty)) (by decide)
    exact iff_of_true (splitLetters_ne_nil given) (not_blankAt_of_text here)
  · rw [blankAt_iff_of_list here, not_iff_not]
    simp [Spelling.word, Word.ofLetters, List.filter_eq_nil_iff]

theorem letter_ne_empty_iff {l : String} (read : letterArg kind args key = .ok l) : l ≠ "" ↔ ¬ BlankAt args key := by
  obtain ⟨spelling, found, one⟩ := bind_eq_ok.mp read
  rcases spelling_eq_ok_iff.mp found with ⟨s, here, -, rfl⟩ | ⟨ls, here, rfl⟩
  · simp only at one
    split at one
    · next single =>
      cases one
      exact iff_of_true (ne_empty_of_mem_splitLetters (single ▸ List.mem_singleton_self l)) (not_blankAt_of_text here)
    · cases one
  · simp only at one
    split at one
    · cases one
      rw [blankAt_iff_of_list here, not_iff_not, List.forall_mem_singleton]
    · cases one

theorem arranged_nonneg {n : Int} (read : arrangedOf v = .ok (.position n)) : 0 ≤ n := by
  unfold arrangedOf at read
  split at read
  · cases read
  · split at read
    · cases read
    · next natural =>
      cases read
      exact Int.not_lt.mp natural
  · cases read

theorem letterArray_wellFormed (read : letterArrayOf v = .ok p) : p.WellFormed := by
  unfold letterArrayOf at read
  simp only at read
  split at read
  · next first rest _ =>
    obtain ⟨items, arranged, same⟩ := bind_eq_ok.mp read
    cases same
    refine ⟨?_, fun n member => ?_⟩
    · rintro rfl
      cases mapM_eq_ok_iff.mp arranged
    · obtain ⟨v, -, here⟩ := mem_of_mapM_eq_ok arranged member
      exact arranged_nonneg here
  · cases read

theorem old_of_letterReplaceFrom {sequences : Entries} (read : letterReplaceFrom sequences args = .ok p) :
    ∃ old new place, wordArg .letterReplace sequences "old" = .ok old ∧ p = .letterReplace old new place := by
  obtain ⟨old, here, read⟩ := bind_eq_ok.mp read
  obtain ⟨new, -, read⟩ := bind_eq_ok.mp read
  obtain ⟨place, -, read⟩ := bind_eq_ok.mp read
  cases read
  exact ⟨old, new, place, here, rfl⟩

/-- The sequence that is replaced is read from where the two sequences stand. -/
theorem old_of_letterReplaceOf (read : letterReplaceOf args = .ok p) :
    ∃ old new place, wordArg .letterReplace (sequenceArgs .letterReplace args) "old" = .ok old ∧
      p = .letterReplace old new place := by
  rw [letterReplaceOf_eq] at read
  split at read
  · next alone =>
    rw [sequenceArgs_alone alone]
    exact old_of_letterReplaceFrom read
  · next inner apart =>
    rw [sequenceArgs_apart apart]
    exact old_of_letterReplaceFrom read
  · cases read

/-- What a kind makes of arguments that it takes is well formed just where the letters that it cannot do without are
there. -/
theorem ofMapping_wellFormed_iff (read : ofMapping kind args = .ok p) :
    p.WellFormed ↔ ∀ key, kind.requiredKey? = some key → ¬ BlankAt (sequenceArgs kind args) key := by
  have required {key : String} {holds : Prop} (key? : kind.requiredKey? = some key)
      (same : holds ↔ ¬ BlankAt (sequenceArgs kind args) key) :
      holds ↔ ∀ key, kind.requiredKey? = some key → ¬ BlankAt (sequenceArgs kind args) key := by
    rw [same]
    exact ⟨fun fine other key?' => by rwa [← Option.some.inj (key?.symm.trans key?')], fun fine => fine key key?⟩
  have free (key? : kind.requiredKey? = none) : ∀ key, kind.requiredKey? = some key →
      ¬ BlankAt (sequenceArgs kind args) key := by
    intro key key?'
    cases key?.symm.trans key?'
  cases kind with
  | letterReplace =>
    obtain ⟨old, new, place, here, rfl⟩ := old_of_letterReplaceOf read
    exact required rfl (word_ne_nil_iff here)
  | letterRemove =>
    obtain ⟨old, here, read⟩ := bind_eq_ok.mp read
    obtain ⟨place, -, read⟩ := bind_eq_ok.mp read
    cases read
    exact required rfl (word_ne_nil_iff here)
  | double =>
    obtain ⟨letter, here, read⟩ := bind_eq_ok.mp read
    obtain ⟨place, -, read⟩ := bind_eq_ok.mp read
    cases read
    exact required rfl (letter_ne_empty_iff here)
  | dedouble =>
    obtain ⟨letter, here, read⟩ := bind_eq_ok.mp read
    obtain ⟨place, -, read⟩ := bind_eq_ok.mp read
    cases read
    exact required rfl (letter_ne_empty_iff here)
  | append =>
    obtain ⟨added, here, read⟩ := bind_eq_ok.mp read
    cases read
    exact required rfl (word_ne_nil_iff here)
  | prepend =>
    obtain ⟨added, here, read⟩ := bind_eq_ok.mp read
    cases read
    exact required rfl (word_ne_nil_iff here)
  | matchReplace =>
    obtain ⟨old, here, read⟩ := bind_eq_ok.mp read
    obtain ⟨new, -, read⟩ := bind_eq_ok.mp read
    cases read
    exact required rfl (word_ne_nil_iff here)
  | letterArray => exact iff_of_true (letterArray_wellFormed (v := .mapping args) read) (free rfl)
  | loanword =>
    cases read
    exact iff_of_true trivial (free rfl)
  | script =>
    obtain ⟨spelling, found, read⟩ := bind_eq_ok.mp read
    rcases spelling_eq_ok_iff.mp found with ⟨s, -, fine, rfl⟩ | ⟨ls, -, rfl⟩
    · cases read
      exact iff_of_true (fun empty => absurd (fine (String.isEmpty_iff.mpr empty)) (by decide)) (free rfl)
    · cases read

theorem blank_named_iff : Blank (.mapping [(.text kind.name, v)]) ↔
    ∃ args key, v = .mapping args ∧ kind.requiredKey? = some key ∧ BlankAt (sequenceArgs kind args) key := by
  constructor
  · intro blank
    generalize same : Value.mapping [(Scalar.text kind.name, v)] = doc at blank
    cases blank with
    | @listed other args key key? blank =>
      simp only [document, Value.mapping.injEq, List.cons.injEq, Prod.mk.injEq, Scalar.text.injEq, and_true] at same
      obtain ⟨name, rfl⟩ := same
      obtain rfl := PrimitiveKind.name_injective name
      exact ⟨args, key, rfl, key?, blank⟩
  · rintro ⟨args, key, rfl, key?, blank⟩
    exact .listed key? blank

theorem ofArguments_wellFormed_iff (read : ofArguments kind v = .ok p) :
    p.WellFormed ↔ ¬ Blank (.mapping [(.text kind.name, v)]) := by
  have unlisted (other : ∀ args, v ≠ .mapping args) : ¬ Blank (.mapping [(.text kind.name, v)]) := by
    rw [blank_named_iff]
    rintro ⟨args, -, same, -⟩
    exact other args same
  unfold ofArguments at read
  split at read
  · next args =>
    rw [blank_named_iff, ofMapping_wellFormed_iff read]
    constructor
    · rintro fine ⟨_, key, ⟨⟩, key?, blank⟩
      exact fine key key? blank
    · exact fun fine key key? blank => fine ⟨args, key, rfl, key?, blank⟩
  · obtain rfl := arguments_nil_iff.mp (ofMapping_ok_iff.mp ⟨p, read⟩)
    cases read
    exact iff_of_true trivial (unlisted nofun)
  · next other _ =>
    cases read
    exact iff_of_true trivial (unlisted other)
  · next other _ => exact iff_of_true (letterArray_wellFormed read) (unlisted other)
  · cases read

theorem ofValue_wellFormed_iff (read : ofValue v = .ok p) : p.WellFormed ↔ ¬ Blank v := by
  unfold ofValue at read
  split at read
  · cases read
    exact iff_of_true trivial nofun
  · split at read
    · split at read
      · next known =>
        obtain rfl := PrimitiveKind.ofName?_eq_some.mp known
        exact ofArguments_wellFormed_iff read
      · cases read
    · cases read
  · cases read

theorem OneLetter.spelled (one : OneLetter args key) : Spelled args key false := by
  cases one with
  | text found some _ => exact .text found fun empty => absurd (empty.symm.trans some) (by decide)
  | @letter l found =>
    have list : args.get? key = some (.list ([l].map .text)) := found
    exact .letters list

theorem spelled_of_arguments (arguments : Arguments kind args) (key? : kind.requiredKey? = some key) :
    Spelled (sequenceArgs kind args) key false := by
  cases arguments with
  | letterReplace sequences old _ _ =>
    cases key?
    rcases sequences with ⟨alone, rfl⟩ | apart
    · exact (sequenceArgs_alone alone).symm ▸ old
    · exact (sequenceArgs_apart apart).symm ▸ old
  | letterRemove old _ => cases key?; exact old
  | double letter _ => cases key?; exact letter.spelled
  | dedouble letter _ => cases key?; exact letter.spelled
  | append added => cases key?; exact added
  | prepend added => cases key?; exact added
  | matchReplace old _ => cases key?; exact old
  | letterArray _ => cases key?
  | loanword => cases key?
  | script _ _ => cases key?

/-- What is read is well formed, unless the letters that its kind cannot do without are given as a list that has none.
A text without letters is refused in their place. -/
theorem ofValue_wellFormed_unless_blank (v : Value) :
    (∀ p, ofValue v = .ok p → (p.WellFormed ↔ ¬ Blank v)) ∧
      ∀ (kind : PrimitiveKind) (args : Entries) (key : String), v = document kind args →
        kind.requiredKey? = some key → (sequenceArgs kind args).get? key = some (.text "") → ∀ p, ofValue v ≠ .ok p := by
  refine ⟨fun p => ofValue_wellFormed_iff, ?_⟩
  rintro kind args key rfl key? none p read
  rw [document, ofValue_named] at read
  cases spelled_of_arguments (ofMapping_ok_iff.mp ⟨p, read⟩) key? with
  | text found fine =>
    cases none.symm.trans found
    exact absurd (fine rfl) (by decide)
  | letters found => cases none.symm.trans found

/-- What takes letters away wherever they stand. -/
def removal (letters : Value) : Value :=
  document .letterRemove [(.text "letter", letters), (.text "position", .text "all")]

/-- What doubles a letter where it stands first. -/
def doubling (letter : Value) : Value :=
  document .double [(.text "letter", letter), (.text "position", .text "first")]

/-- Lists may hold empty letters beside others. -/
theorem removal_wellFormed :
    ofValue (removal (.list [.text "", .text "rw"])) = .ok (.letterRemove ⟨["rw"]⟩ .all) ∧
      WellFormed (.letterRemove ⟨["rw"]⟩ .all) ∧ ¬ Blank (removal (.list [.text "", .text "rw"])) ∧
      PrimitiveKind.requiredKey? .double = some "letter" ∧ ∀ p, ofValue (doubling (.text "")) ≠ .ok p := by
  have read : ofValue (removal (.list [.text "", .text "rw"])) = .ok (.letterRemove ⟨["rw"]⟩ .all) := rfl
  have fine : WellFormed (.letterRemove ⟨["rw"]⟩ .all) := List.cons_ne_nil _ _
  exact ⟨read, fine, ((ofValue_wellFormed_unless_blank _).1 _ read).mp fine, rfl,
    (ofValue_wellFormed_unless_blank _).2 .double _ "letter" rfl rfl rfl⟩

/-- Lists without letters are taken where the same text is refused. -/
theorem nothing_removed_or_doubled :
    ofValue (removal (.text "")) = .error (.malformed (.fieldEmpty .letterRemove "letter") none) ∧
      (∃ p, ofValue (removal (.list [])) = .ok p ∧ ¬ p.WellFormed) ∧
      (∃ p, ofValue (removal (.list [.text ""])) = .ok p ∧ ¬ p.WellFormed) ∧
      ofValue (doubling (.text "")) = .error (.malformed (.fieldEmpty .double "letter") none) ∧
      ∃ p, ofValue (doubling (.list [.text ""])) = .ok p ∧ ¬ p.WellFormed := by
  have removed : ¬ WellFormed (.letterRemove ⟨[]⟩ .all) := fun some => some rfl
  have doubled : ¬ WellFormed (.double "" .first) := fun some => some rfl
  exact ⟨rfl, ⟨_, rfl, removed⟩, ⟨_, rfl, removed⟩, rfl, ⟨_, rfl, doubled⟩⟩

end

end Primitive

end Etymology
