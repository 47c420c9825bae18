import Etymology.Proofs.Letters.Doubling
import Etymology.Proofs.Letters.Splitting

namespace Etymology

namespace Word

/-- None of the letters is empty. -/
def Legible (w : Word) : Prop :=
  ∀ l ∈ w.letters, l ≠ ""

/-- A word that is made of a text, or of letters given one by one. -/
inductive Given : Word → Prop
  | text (s : String) : Given (ofText s)
  | letters (ls : List String) : Given (ofLetters ls)

theorem legible_ofText (s : String) : (ofText s).Legible :=
  fun _ member => ne_empty_of_mem_splitLetters member

theorem legible_ofLetters (ls : List String) : (ofLetters ls).Legible := by
  intro l member
  simpa using (List.mem_filter.mp member).2

/-- Words are given in these two ways if they have no empty letters, and only then. -/
theorem given_iff_legible {w : Word} : w.Given ↔ w.Legible := by
  constructor
  · rintro (s | ls)
    · exact legible_ofText s
    · exact legible_ofLetters ls
  · intro legible
    have same : ofLetters w.letters = w :=
      congrArg Word.mk (List.filter_eq_self.mpr fun l member => by simpa using legible l member)
    exact same ▸ .letters w.letters

section

variable {w v old new : Word}

theorem legible_empty : Legible empty :=
  nofun

theorem Legible.append (first : w.Legible) (second : v.Legible) : (w ++ v).Legible := by
  intro l member
  rcases List.mem_append.mp member with before | behind
  · exact first l before
  · exact second l behind

/-- Letters of an exchange are in what it puts in, or they were in the word. -/
theorem forall_mem_filled {p : String → Prop} {f h : Nat → List String} {g : List String} {gs : List (List String)}
    (whole : ∀ c ∈ filled h g gs, p c) (fillings : ∀ i, f i = h i ∨ ∀ c ∈ f i, p c) : ∀ c ∈ filled f g gs, p c := by
  induction gs generalizing f h g with
  | nil => exact whole
  | cons k gs ih =>
    simp only [filled, List.forall_mem_append] at whole ⊢
    obtain ⟨⟨stretch, filling⟩, rest⟩ := whole
    refine ⟨⟨stretch, ?_⟩, ih rest fun i => fillings (i + 1)⟩
    rcases fillings 0 with same | fine
    · exact same ▸ filling
    · exact fine

theorem Legible.replace (legible : w.Legible) (put : new.Legible) (old : Word) (place : Place) :
    (w.replace old new place).Legible := by
  cases some : old.isEmpty with
  | true => rwa [replace_of_isEmpty some]
  | false =>
    obtain ⟨g, gs, parted⟩ := exists_parted (letters_ne_nil some) w.letters
    rw [Legible, parted.eq_filled] at legible
    rw [Legible, letters_replace some parted]
    refine forall_mem_filled legible fun i => ?_
    split
    · exact .inr put
    · exact .inl rfl

/-- An empty letter is found nowhere in the word, so that it is not doubled either. -/
theorem Legible.double (legible : w.Legible) (l : String) (place : Place) : (w.double l place).Legible := by
  rw [double_eq_replace]
  by_cases empty : l = ""
  · rwa [replace_absent rfl]
    rintro i ⟨u, v, here, -⟩
    exact legible l (by rw [here]; simp) empty
  · refine legible.replace ?_ _ _
    simpa [Legible] using empty

theorem letters_dedouble_sublist (w : Word) (l : String) (place : Place) :
    (w.dedouble l place).letters.Sublist w.letters := by
  cases place with
  | first => exact dedoubleFirst_sublist l w.letters
  | all => exact dedoubleAll_sublist l w.letters
  | last =>
    have mirrored := (dedoubleFirst_sublist l w.letters.reverse).reverse
    rwa [List.reverse_reverse] at mirrored

theorem Legible.dedouble (legible : w.Legible) (l : String) (place : Place) : (w.dedouble l place).Legible :=
  fun c member => legible c ((letters_dedouble_sublist w l place).subset member)

theorem Legible.rearrange (legible : w.Legible) (items : List Arranged) : (w.rearrange items).Legible := by
  intro l member
  obtain ⟨item, -, here⟩ := List.mem_flatMap.mp member
  match item with
  | .text s => exact ne_empty_of_mem_splitLetters here
  | .position (.ofNat n) => exact legible l (List.mem_of_getElem? (Option.mem_toList.mp here))
  | .position (.negSucc n) => cases here

/-- Nothing is written for a word only if it has no letters. -/
theorem Legible.isEmpty_iff_text (legible : w.Legible) : w.isEmpty = true ↔ w.text = "" := by
  obtain ⟨letters⟩ := w
  cases letters with
  | nil => exact iff_of_true rfl rfl
  | cons c letters =>
    refine iff_of_false Bool.false_ne_true fun none => ?_
    rw [text, String.join_cons, String.append_eq_empty_iff] at none
    exact legible c List.mem_cons_self none.1

end

end Word

end Etymology
