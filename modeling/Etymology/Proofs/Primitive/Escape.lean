import Etymology.Proofs.Escape
import Etymology.Proofs.Primitive.Grammar

namespace Etymology

/-- Where the place stands among the arguments of a kind that has one. -/
def PrimitiveKind.placeKey : PrimitiveKind → String
  | .letterReplace => "replace"
  | _ => "position"

namespace Primitive

/-- A kind has a place, and its other arguments are in order. -/
inductive Lettered : PrimitiveKind → Entries → Prop
  | letterReplace {args inner} : args.getD "letter" = .null ∧ inner = args ∨ args.getD "letter" = .mapping inner →
      Spelled inner "old" false → Spelled inner "new" true → Lettered .letterReplace args
  | letterRemove {args} : Spelled args "letter" false → Lettered .letterRemove args
  | double {args} : OneLetter args "letter" → Lettered .double args
  | dedouble {args} : OneLetter args "letter" → Lettered .dedouble args

/-- An entry of an arrangement is a letter or a position. -/
def Arrangeable (v : Value) : Prop :=
  (∃ s, v = .text s) ∨ ∃ n : Nat, v = .int n

/-- An entry of an arrangement that is refused, but has no text to be told by. Numbers are refused for their sign. -/
def UnarrangeableUntold (v : Value) : Prop :=
  v.Untold ∧ ∀ n, v ≠ .int n

/-- What is told of the arguments of a kind has no text: its place, or an entry of an arrangement. -/
inductive UntoldArguments : PrimitiveKind → Entries → Prop
  | place {kind args} : Lettered kind args → (args.getD kind.placeKey).Untold → UntoldArguments kind args
  | arranged {args items} : args.getD "letters" = .list items → Meets Arrangeable UnarrangeableUntold items →
      UntoldArguments .letterArray args

/-- The fault of a document of a primitive asks for the text of a value that has none: of the whole, of the name of its
kind, or of something that stands beside the name. -/
inductive Untellable : Value → Prop
  | whole {v} : (∀ e, v ≠ .mapping [e]) → v.Untold → Untellable v
  | kind {key args} : (Value.scalar key).Untold → Untellable (.mapping [(key, args)])
  | arguments {kind : PrimitiveKind} {args} : UntoldArguments kind args →
      Untellable (.mapping [(.text kind.name, .mapping args)])
  | arrangement {items} : Meets Arrangeable UnarrangeableUntold items →
      Untellable (.mapping [(.text PrimitiveKind.letterArray.name, .list items)])

section Arguments

variable {kind : PrimitiveKind} {args : Entries} {key : String} {v : Value}

theorem place_escapes : Escapes (Misdefined none) (placeArg kind args key) ((args.getD key).Untold) := by
  unfold placeArg
  split
  · next place read =>
    refine (Escapes.ok place).congr (iff_of_false not_false fun untold => ?_)
    unfold Place.ofValue? at read
    split at read
    case h_4 => cases read
    all_goals next same => rw [same] at untold; cases untold
  · rw [← Value.quoted?_eq_none_iff]
    exact .telling (fun t => .malformed _) nofun

theorem spelling_escapes {mayBeEmpty : Bool} :
    Escapes (Misdefined none) (spellingArg kind args key mayBeEmpty) False := by
  unfold spellingArg
  split
  · exact .malformed id
  · split
    · exact .malformed id
    · exact .ok _
  · split
    · exact .ok _
    · exact .malformed id
  · exact .malformed id

theorem word_escapes {mayBeEmpty : Bool} : Escapes (Misdefined none) (wordArg kind args key mayBeEmpty) False :=
  spelling_escapes.map

theorem letter_escapes : Escapes (Misdefined none) (letterArg kind args key) False := by
  refine spelling_escapes.bind_expected fun spelling => ?_
  simp only
  split
  · exact .ok _
  · exact .malformed id

theorem script_escapes : Escapes (Misdefined none) (scriptOf args) False := by
  refine spelling_escapes.bind_expected fun spelling => ?_
  cases spelling with
  | text file => exact .ok _
  | letters ls => exact .malformed id

/-- Of some letters and a place only the place is told. -/
theorem lettered_escapes {α β : Type} {letters : Except Fault α} {fine : Prop} {make : α → Place → β}
    (read : Escapes (Misdefined none) letters False) (done : (∃ a, letters = .ok a) ↔ fine) :
    Escapes (Misdefined none) (do
      let a ← letters
      return make a (← placeArg kind args key)) (fine ∧ (args.getD key).Untold) := by
  rw [← done]
  exact read.bind_checked fun a => place_escapes.bind_expected fun place => .ok (make a place)

theorem arranged_escapes : Escapes (Misdefined none) (arrangedOf v) (UnarrangeableUntold v) := by
  unfold arrangedOf
  split
  · next s =>
    refine (Escapes.ok _).congr (iff_of_false not_false fun untold => ?_)
    cases untold.1
  · next n =>
    have never : ¬ UnarrangeableUntold (.scalar (.int n)) := fun untold => untold.2 n rfl
    split
    · exact .malformed never
    · exact (Escapes.ok _).congr (iff_of_false not_false never)
  · next other =>
    have never : UnarrangeableUntold v ↔ v.quoted? = none := by
      rw [Value.quoted?_eq_none_iff]
      exact and_iff_left other
    rw [never]
    exact .telling (fun t => .malformed _) nofun

theorem letterArray_list_escapes {items : List Value} :
    Escapes (Misdefined none) (letterArrayOf (.list items)) (Meets Arrangeable UnarrangeableUntold items) := by
  cases items with
  | nil => exact .malformed not_meets_nil
  | cons first rest =>
    exact (Escapes.mapM (fun _ => arranged_escapes) (fun _ => arranged_ok_iff) (first :: rest)).bind_expected
      fun items => .ok (Primitive.letterArray items)

theorem letterArray_mapping_escapes : Escapes (Misdefined none) (letterArrayOf (.mapping args))
    (∃ items, args.getD "letters" = .list items ∧ Meets Arrangeable UnarrangeableUntold items) := by
  cases under : args.getD "letters" with
  | list items =>
    have same : letterArrayOf (.mapping args) = letterArrayOf (.list items) := by simp only [letterArrayOf, under]
    rw [same]
    exact letterArray_list_escapes.congr (by simp)
  | scalar s =>
    simp only [letterArrayOf, under]
    exact .malformed (by simp)
  | mapping es =>
    simp only [letterArrayOf, under]
    exact .malformed (by simp)

theorem letterReplaceFrom_escapes {sequences : Entries} : Escapes (Misdefined none) (letterReplaceFrom sequences args)
    (Spelled sequences "old" false ∧ Spelled sequences "new" true ∧ (args.getD "replace").Untold) := by
  rw [← word_ok_iff, ← word_ok_iff]
  exact word_escapes.bind_checked fun old => word_escapes.bind_checked fun new =>
    place_escapes.bind_expected fun place => .ok (Primitive.letterReplace old new place)

theorem letterReplace_escapes :
    Escapes (Misdefined none) (letterReplaceOf args) (UntoldArguments .letterReplace args) := by
  rw [letterReplaceOf_eq]
  split
  · next alone =>
    refine letterReplaceFrom_escapes.congr ⟨?_, ?_⟩
    · rintro ⟨old, new, untold⟩
      exact .place (.letterReplace (.inl ⟨alone, rfl⟩) old new) untold
    · rintro ⟨@⟨_, _, ⟨-, rfl⟩ | apart, old, new⟩, untold⟩
      · exact ⟨old, new, untold⟩
      · cases alone.symm.trans apart
  · next inner apart =>
    refine letterReplaceFrom_escapes.congr ⟨?_, ?_⟩
    · rintro ⟨old, new, untold⟩
      exact .place (.letterReplace (.inr apart) old new) untold
    · rintro ⟨@⟨_, _, ⟨alone, -⟩ | again, old, new⟩, untold⟩
      · cases apart.symm.trans alone
      · cases apart.symm.trans again
        exact ⟨old, new, untold⟩
  · next present unmapped =>
    refine .malformed ?_
    rintro ⟨@⟨_, _, ⟨alone, -⟩ | apart, -, -⟩, -⟩
    · exact present alone
    · exact unmapped _ apart

theorem ofMapping_escapes : Escapes (Misdefined none) (ofMapping kind args) (UntoldArguments kind args) := by
  cases kind with
  | letterReplace => exact letterReplace_escapes
  | letterRemove =>
    exact (lettered_escapes word_escapes word_ok_iff).congr
      ⟨fun ⟨letters, untold⟩ => .place (.letterRemove letters) untold,
        fun | .place (.letterRemove letters) untold => ⟨letters, untold⟩⟩
  | double =>
    exact (lettered_escapes letter_escapes letter_ok_iff).congr
      ⟨fun ⟨letter, untold⟩ => .place (.double letter) untold,
        fun | .place (.double letter) untold => ⟨letter, untold⟩⟩
  | dedouble =>
    exact (lettered_escapes letter_escapes letter_ok_iff).congr
      ⟨fun ⟨letter, untold⟩ => .place (.dedouble letter) untold,
        fun | .place (.dedouble letter) untold => ⟨letter, untold⟩⟩
  | append =>
    exact (word_escapes.bind_expected fun added => .ok (Primitive.append added)).congr
      (iff_of_false not_false fun | .place lettered _ => nomatch lettered)
  | prepend =>
    exact (word_escapes.bind_expected fun added => .ok (Primitive.prepend added)).congr
      (iff_of_false not_false fun | .place lettered _ => nomatch lettered)
  | matchReplace =>
    exact (word_escapes.bind_expected fun old => word_escapes.bind_expected fun new =>
      .ok (Primitive.matchReplace old new)).congr (iff_of_false not_false fun | .place lettered _ => nomatch lettered)
  | letterArray =>
    exact letterArray_mapping_escapes.congr ⟨fun ⟨_, list, meets⟩ => .arranged list meets,
      fun | .arranged list meets => ⟨_, list, meets⟩⟩
  | loanword => exact (Escapes.ok _).congr (iff_of_false not_false fun | .place lettered _ => nomatch lettered)
  | script => exact script_escapes.congr (iff_of_false not_false fun | .place lettered _ => nomatch lettered)

/-- Without arguments nothing is told. -/
theorem not_untoldArguments_nil : ¬ UntoldArguments kind [] := by
  rintro (⟨-, untold⟩ | ⟨list, -⟩)
  · cases untold
  · cases list

/-- What stands beside the name of a kind is told by a text that is not there. -/
def UntoldBeside (kind : PrimitiveKind) (v : Value) : Prop :=
  (∃ args, v = .mapping args ∧ UntoldArguments kind args) ∨
    ∃ items, kind = .letterArray ∧ v = .list items ∧ Meets Arrangeable UnarrangeableUntold items

theorem ofArguments_escapes : Escapes (Misdefined none) (ofArguments kind v) (UntoldBeside kind v) := by
  cases v with
  | mapping args => exact ofMapping_escapes.congr (by simp [UntoldBeside])
  | list items =>
    cases kind with
    | letterArray => exact letterArray_list_escapes.congr (by simp [UntoldBeside])
    | loanword => exact (Escapes.ok _).congr (by simp [UntoldBeside])
    | _ => exact .malformed (by simp [UntoldBeside])
  | scalar s =>
    have never : ¬ UntoldBeside kind (.scalar s) := by simp [UntoldBeside]
    unfold ofArguments
    split
    · next same => cases same
    · exact ofMapping_escapes.congr (iff_of_false not_untoldArguments_nil never)
    · exact (Escapes.ok _).congr (iff_of_false not_false never)
    · exact .malformed never
    · exact .malformed never

end Arguments

theorem untellable_mapping_iff {key : Scalar} {args : Value} : Untellable (.mapping [(key, args)]) ↔
    (Value.scalar key).Untold ∨ ∃ kind : PrimitiveKind, key = .text kind.name ∧ UntoldBeside kind args := by
  constructor
  · generalize same : Value.mapping [(key, args)] = v
    intro untellable
    cases untellable with
    | whole other => exact absurd same.symm (other _)
    | kind untold =>
      cases same
      exact .inl untold
    | arguments untold =>
      cases same
      exact .inr ⟨_, rfl, .inl ⟨_, rfl, untold⟩⟩
    | arrangement meets =>
      cases same
      exact .inr ⟨_, rfl, .inr ⟨_, rfl, rfl, meets⟩⟩
  · rintro (untold | ⟨kind, rfl, ⟨entries, rfl, untold⟩ | ⟨items, rfl, rfl, meets⟩⟩)
    · exact .kind untold
    · exact .arguments untold
    · exact .arrangement meets

/-- Reading the document of a primitive fails without a fault that tells what is wrong exactly where this would have to
be told by a value that has no text. -/
theorem ofValue_escapes (v : Value) : Escapes (Misdefined none) (Primitive.ofValue v) (Untellable v) := by
  unfold Primitive.ofValue
  split
  · refine (Escapes.ok _).congr (iff_of_false not_false fun untellable => ?_)
    cases untellable with
    | whole _ untold => cases untold
  · next key args =>
    rw [untellable_mapping_iff]
    split
    · next name =>
      split
      · next kind known =>
        obtain rfl := PrimitiveKind.ofName?_eq_some.mp known
        refine ofArguments_escapes.congr ⟨fun beside => .inr ⟨kind, rfl, beside⟩, ?_⟩
        rintro (untold | ⟨other, same, beside⟩)
        · cases untold
        · obtain rfl := PrimitiveKind.name_injective (Scalar.text.inj same)
          exact beside
      · next unknown =>
        refine .malformed ?_
        rintro (untold | ⟨kind, same, -⟩)
        · cases untold
        · rw [Scalar.text.inj same, PrimitiveKind.ofName?_name] at unknown
          cases unknown
    · next unnamed =>
      have named : ¬ ∃ kind : PrimitiveKind, key = .text kind.name ∧ UntoldBeside kind args := by
        rintro ⟨kind, rfl, -⟩
        exact unnamed _ rfl
      rw [or_iff_left named, ← Scalar.written?_eq_none_iff]
      exact .telling (fun t => .malformed _) nofun
  · next bare single =>
    have whole : Untellable v ↔ v.quoted? = none := by
      rw [Value.quoted?_eq_none_iff]
      refine ⟨fun untellable => ?_, .whole fun e same => single e.1 e.2 same⟩
      cases untellable with
      | whole _ untold => exact untold
      | _ => exact absurd rfl (single _ _)
    rw [whole]
    exact .telling (fun t => .malformed _) nofun

theorem Untellable.untold {v : Value} (untellable : Untellable v) : v.Untold := by
  cases untellable with
  | whole _ untold => exact untold
  | kind untold => exact .key (List.mem_singleton_self _) untold
  | arguments untold =>
    refine .value (List.mem_singleton_self _) ?_
    cases untold with
    | place _ untold => exact Value.untold_of_getD untold
    | arranged list meets =>
      obtain ⟨item, member, untold, -⟩ := meets.exists_mem
      have inside : (Value.list _).Untold := .item member untold
      exact Value.untold_of_getD (list.symm ▸ inside)
  | arrangement meets =>
    obtain ⟨item, member, untold, -⟩ := meets.exists_mem
    exact .value (List.mem_singleton_self _) (.item member untold)

end Primitive

end Etymology
