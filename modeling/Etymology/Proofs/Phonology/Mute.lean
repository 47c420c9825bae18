import Etymology.Proofs.Phonology.Choices
import Etymology.Proofs.Table

namespace Etymology

/-- Choices can be made such that the word that a key gives is empty. -/
def Generator.Mute (g : Generator) (key : Value) : Prop :=
  ∃ before after, g.createWordFor key before = (.ok .empty, after)

/-- No pattern of the phonology is empty. -/
structure Phonology.Audible (p : Phonology) : Prop where
  groups : ∀ e ∈ p.groups.entries, [] ∉ e.2
  lexisTypes : ∀ e ∈ p.lexisTypes.entries, [] ∉ e.2

namespace Generator

/-- Something is left to be said, if nothing has been, through the whole expansion. -/
theorem expand_ne_nil {g : Generator} {picks : Picks} {letters spoken : List String}
    {stack : List Pattern} (audible : g.phonology.Audible)
    (heard : letters ≠ [] ∨ ∃ pattern ∈ stack, pattern ≠ [])
    (run : (g.expand picks letters stack).1 = .ok spoken) : spoken ≠ [] := by
  fun_induction g.expand picks letters stack with
  | case1 picks letters =>
    cases run
    simpa using heard
  | case2 picks letters outer ih => exact ih (by simpa using heard) run
  | case3 picks letters text pattern outer ih => exact ih (.inl (by simp)) run
  | case4 => cases run
  | case5 => cases run
  | case6 => cases run
  | case7 => cases run
  | case8 picks letters symbol pattern outer alternatives found filled low alternative after picked ih =>
    have member := Picks.mem_of_choose? picked
    have voiced : [] ∉ alternatives := audible.groups _ (Table.mem_entries_of_get? found)
    exact ih (.inr ⟨alternative, List.mem_cons_self, fun empty => voiced (empty ▸ member)⟩) run

theorem not_mute {g : Generator} (audible : g.phonology.Audible) (key : Value) : ¬ g.Mute key := by
  rintro ⟨before, after, run⟩
  obtain ⟨s, shapes, shape, next, -, found, picked, expanded⟩ := createWordFor_ok run
  have member := Picks.mem_of_choose? picked
  have voiced : [] ∉ shapes := audible.lexisTypes _ (Table.mem_entries_of_get? found)
  have shaped : shape ≠ [] := fun empty => voiced (empty ▸ member)
  have silent : (g.expand next [] [shape]).1 = .ok [] := by
    rw [expanded]
    rfl
  exact expand_ne_nil audible (.inr ⟨shape, List.mem_cons_self, shaped⟩) silent rfl

end Generator

end Etymology
