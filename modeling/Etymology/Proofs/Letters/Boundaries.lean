import Etymology.Proofs.Letters.Splitting
import Etymology.Proofs.Text.Runs

namespace Etymology

/-- A character that is no mark, with the marks behind it. -/
def Headed (group : List Char) : Prop :=
  ∃ head marks, group = head :: marks ∧ Text.isMark head = false ∧ ∀ m ∈ marks, Text.isMark m = true

section Groups

variable {c : Char} {cs before after group : List Char} {groups : List (List Char)}

theorem headed_of_groupLetter_foldr (cs : List Char) : (∀ m ∈ (cs.foldr groupLetter ([], [])).1, Text.isMark m = true) ∧
    ∀ group ∈ (cs.foldr groupLetter ([], [])).2, Headed group := by
  induction cs with
  | nil => exact ⟨List.forall_mem_nil _, List.forall_mem_nil _⟩
  | cons c cs ih =>
    obtain ⟨waiting, complete⟩ := ih
    rw [List.foldr_cons]
    generalize cs.foldr groupLetter ([], []) = state at waiting complete
    obtain ⟨marks, letters⟩ := state
    rw [groupLetter]
    by_cases mark : Text.isMark c = true
    · rw [if_pos mark]
      exact ⟨List.forall_mem_cons.mpr ⟨mark, waiting⟩, complete⟩
    · rw [if_neg mark]
      have headed : Headed (c :: marks) := ⟨c, marks, rfl, Bool.eq_false_iff.mpr mark, waiting⟩
      exact ⟨List.forall_mem_nil _, List.forall_mem_cons.mpr ⟨headed, complete⟩⟩

/-- All groups but the first have a head, and so has the first but for marks at the start. -/
theorem headed_of_letterGroups (split : letterGroups cs = group :: groups) :
    (∀ m ∈ group.tail, Text.isMark m = true) ∧ ∀ g ∈ groups, Headed g := by
  obtain ⟨waiting, complete⟩ := headed_of_groupLetter_foldr cs
  rw [letterGroups] at split
  generalize cs.foldr groupLetter ([], []) = state at waiting complete split
  obtain ⟨marks, letters⟩ := state
  cases marks with
  | nil =>
    obtain rfl : letters = group :: groups := split
    obtain ⟨⟨head, marks, rfl, -, behind⟩, later⟩ := List.forall_mem_cons.mp complete
    exact ⟨behind, later⟩
  | cons m marks =>
    obtain ⟨rfl, rfl⟩ : m :: marks = group ∧ letters = groups := List.cons.inj split
    exact ⟨(List.forall_mem_cons.mp waiting).2, complete⟩

theorem isMark_of_mem_tail (member : group ∈ letterGroups cs) : ∀ m ∈ group.tail, Text.isMark m = true := by
  obtain ⟨first, rest, split⟩ := List.exists_cons_of_ne_nil (List.ne_nil_of_mem member)
  obtain ⟨behind, headed⟩ := headed_of_letterGroups split
  rw [split] at member
  rcases List.mem_cons.mp member with rfl | among
  · exact behind
  · obtain ⟨head, marks, rfl, -, all⟩ := headed group among
    exact all

/-- Of a group that has only marks behind its first character, a character that is no mark can only be the first. -/
theorem eq_nil_of_marks (marks : ∀ m ∈ group.tail, Text.isMark m = true) (split : group = before ++ c :: after)
    (plain : Text.isMark c = false) : before = [] := by
  cases before with
  | nil => rfl
  | cons b before =>
    have inside : c ∈ group.tail := by simp [split]
    have mark := marks c inside
    rw [plain] at mark
    cases mark

/-- In groups that have only marks behind their first characters, one begins with each character that is no mark. -/
theorem exists_groups (marks : ∀ g ∈ groups, ∀ m ∈ g.tail, Text.isMark m = true)
    (whole : groups.flatten = before ++ c :: after) (plain : Text.isMark c = false) :
    ∃ front back, groups = front ++ back ∧ back ≠ [] ∧ front.flatten = before := by
  induction groups generalizing before with
  | nil => simp at whole
  | cons g groups ih =>
    obtain ⟨here, later⟩ := List.forall_mem_cons.mp marks
    rw [List.flatten_cons] at whole
    -- The character is in a later group, or in this one, where it must be the first.
    rcases List.append_eq_append_iff.mp whole with ⟨between, rfl, rest⟩ | ⟨between, split, rest⟩
    · obtain ⟨front, back, rfl, some, same⟩ := ih later rest
      exact ⟨g :: front, back, rfl, some, by rw [List.flatten_cons, same]⟩
    · cases between with
      | nil =>
        rw [List.append_nil] at split
        obtain ⟨front, back, rfl, some, same⟩ := @ih [] later rest.symm
        exact ⟨g :: front, back, rfl, some, by rw [List.flatten_cons, same, List.append_nil, split]⟩
      | cons d between =>
        obtain ⟨rfl, -⟩ : c = d ∧ after = between ++ groups.flatten := List.cons.inj rest
        have first := eq_nil_of_marks here split plain
        exact ⟨[], g :: groups, rfl, List.cons_ne_nil g groups, first.symm⟩

/-- Between two groups is every place but the first where no mark comes next. -/
theorem exists_letterGroups_iff (cs : List Char) (i : Nat) :
    (∃ front back, letterGroups cs = front ++ back ∧ front ≠ [] ∧ back ≠ [] ∧ front.flatten.length = i) ↔
      i ≠ 0 ∧ ∃ c, cs[i]? = some c ∧ Text.isMark c = false := by
  have whole := flatten_letterGroups cs
  constructor
  · rintro ⟨front, back, split, something, more, rfl⟩
    obtain ⟨first, front, rfl⟩ := List.exists_cons_of_ne_nil something
    obtain ⟨next, back, rfl⟩ := List.exists_cons_of_ne_nil more
    have among : first ∈ letterGroups cs := by
      rw [split]
      exact List.mem_cons_self
    have given : (first :: front).flatten ≠ [] :=
      List.append_ne_nil_of_left_ne_nil (ne_nil_of_mem_letterGroups among) front.flatten
    obtain ⟨-, headed⟩ := headed_of_letterGroups split
    obtain ⟨head, marks, rfl, plain, -⟩ := headed next (by simp)
    refine ⟨mt List.length_eq_zero_iff.mp given, head, ?_, plain⟩
    rw [split, List.flatten_append] at whole
    rw [← whole, List.getElem?_append_right (Nat.le_refl _), Nat.sub_self]
    rfl
  · rintro ⟨later, c, found, plain⟩
    obtain ⟨inside, here⟩ := List.getElem?_eq_some_iff.mp found
    have place : cs = cs.take i ++ c :: cs.drop (i + 1) := by
      rw [← here, ← List.drop_eq_getElem_cons inside, List.take_append_drop]
    obtain ⟨front, back, split, some, same⟩ := exists_groups (fun g => isMark_of_mem_tail) (whole.trans place) plain
    have length : front.flatten.length = i := by
      rw [same, List.length_take]
      omega
    refine ⟨front, back, split, ?_, some, length⟩
    rintro rfl
    exact later length.symm

end Groups

/-- One letter ends and the next begins before the character at this place. -/
def BoundaryAt (letters : List String) (i : Nat) : Prop :=
  ∃ front back, letters = front ++ back ∧ front ≠ [] ∧ back ≠ [] ∧ (String.join front).length = i

theorem join_splitLetters (s : String) : String.join (splitLetters s) = String.ofList (Text.composed s.toList) := by
  rw [splitLetters, Text.join_map_ofList, flatten_letterGroups]

theorem boundaryAt_map_ofList (groups : List (List Char)) (i : Nat) : BoundaryAt (groups.map String.ofList) i ↔
    ∃ front back, groups = front ++ back ∧ front ≠ [] ∧ back ≠ [] ∧ front.flatten.length = i := by
  constructor
  · rintro ⟨front, back, split, something, more, rfl⟩
    obtain ⟨first, second, rfl, rfl, rfl⟩ := List.map_eq_append_iff.mp split
    refine ⟨first, second, rfl, mt List.map_eq_nil_iff.mpr something, mt List.map_eq_nil_iff.mpr more, ?_⟩
    rw [Text.join_map_ofList, String.length_ofList]
  · rintro ⟨front, back, rfl, something, more, rfl⟩
    refine ⟨front.map String.ofList, back.map String.ofList, List.map_append, mt List.map_eq_nil_iff.mp something,
      mt List.map_eq_nil_iff.mp more, ?_⟩
    rw [Text.join_map_ofList, String.length_ofList]

/-- The letters of a text are its composed form in stretches, none of them empty. One ends and the next begins before
every character of combining class 0 but the first of the text, and nowhere else. The text that they are together is
split into the same letters again, so that the word of a text is the word of its own text. -/
theorem splitLetters_faithful (s : String) :
    (∀ l ∈ splitLetters s, l ≠ "") ∧ String.join (splitLetters s) = String.ofList (Text.composed s.toList) ∧
      (∀ i, BoundaryAt (splitLetters s) i ↔
        i ≠ 0 ∧ ∃ c, (Text.composed s.toList)[i]? = some c ∧ Text.combiningClass c = 0) ∧
      splitLetters (String.join (splitLetters s)) = splitLetters s ∧
      Word.ofText (Word.ofText s).text = Word.ofText s := by
  have again : splitLetters (String.join (splitLetters s)) = splitLetters s := by
    rw [join_splitLetters, splitLetters, String.toList_ofList, Text.composed_composed, splitLetters]
  refine ⟨fun l => ne_empty_of_mem_splitLetters, join_splitLetters s, fun i => ?_, again, congrArg Word.mk again⟩
  rw [splitLetters, boundaryAt_map_ofList, exists_letterGroups_iff]
  simp only [Text.isMark, bne_eq_false_iff_eq]

end Etymology
