import Etymology.Letters.Word
import Etymology.Proofs.Text.Composed

namespace Etymology

/-- Marks that wait for a letter stand before the letters that are complete. -/
theorem groupLetter_foldr (cs : List Char) :
    (cs.foldr groupLetter ([], [])).1 ++ (cs.foldr groupLetter ([], [])).2.flatten = cs ∧
      ∀ group ∈ (cs.foldr groupLetter ([], [])).2, group ≠ [] := by
  induction cs with
  | nil => exact ⟨rfl, nofun⟩
  | cons c cs ih =>
    obtain ⟨whole, complete⟩ := ih
    rw [List.foldr_cons]
    generalize cs.foldr groupLetter ([], []) = waiting at whole complete
    obtain ⟨marks, letters⟩ := waiting
    rw [groupLetter]
    split
    · exact ⟨congrArg (c :: ·) whole, complete⟩
    · refine ⟨congrArg (c :: ·) whole, fun group member => ?_⟩
      rcases List.mem_cons.mp member with rfl | earlier
      · exact List.cons_ne_nil c marks
      · exact complete group earlier

theorem flatten_letterGroups (cs : List Char) : (letterGroups cs).flatten = cs := by
  have whole := (groupLetter_foldr cs).1
  rw [letterGroups]
  split
  · next letters same => simpa only [same, List.nil_append] using whole
  · next marks letters _ same => simpa only [same, List.flatten_cons] using whole

theorem ne_nil_of_mem_letterGroups {cs group : List Char} (member : group ∈ letterGroups cs) : group ≠ [] := by
  have complete := (groupLetter_foldr cs).2
  rw [letterGroups] at member
  split at member
  · next letters same =>
    rw [same] at complete
    exact complete group member
  · next marks letters waiting same =>
    rw [same] at complete
    rcases List.mem_cons.mp member with rfl | later
    · exact waiting
    · exact complete group later

theorem ne_empty_of_mem_splitLetters {s l : String} (member : l ∈ splitLetters s) : l ≠ "" := by
  obtain ⟨group, among, rfl⟩ := List.mem_map.mp member
  exact fun empty => ne_nil_of_mem_letterGroups among (String.ofList_eq_empty_iff.mp empty)

theorem splitLetters_ne_nil {s : String} (given : s ≠ "") : splitLetters s ≠ [] := by
  have chars : s.toList ≠ [] := fun empty => given (String.toList_eq_nil_iff.mp empty)
  intro none
  have groups : letterGroups (Text.composed s.toList) = [] := List.map_eq_nil_iff.mp none
  have whole := flatten_letterGroups (Text.composed s.toList)
  rw [groups] at whole
  exact Text.composed_ne_nil chars whole.symm

theorem splitLetters_empty : splitLetters "" = [] := rfl

end Etymology
