import Etymology.Phonology.Generator
import Etymology.Proofs.Phonology.Mute

namespace Etymology

/-- A word leaves a lexis to phonetic rules only if it is empty. -/
theorem Lexis.eq_empty_of_isGenerated {x : Lexis} {w : Word}
    (still : (x.withWord w).isGenerated = true) : w = .empty := by
  simp only [isGenerated, Bool.and_eq_true, Option.isNone_iff_eq_none] at still
  have bare : (x.withWord w).literal? = none := still.1.1
  obtain ⟨letters⟩ := w
  have empty : letters = [] := by
    simpa [literal?, withWord, Word.isEmpty, Option.filter] using bare
  rw [empty, Word.empty]

namespace Graph

theorem mem_set {g : Graph} {x y : Lexis} (member : y ∈ (g.set x).nodes) :
    y = x ∨ y ∈ g.nodes ∧ y.id ≠ x.id := by
  obtain ⟨z, inside, same⟩ := List.mem_map.mp member
  split at same
  · exact .inl same.symm
  · next other => exact .inr ⟨same ▸ inside, same ▸ other⟩

/-- Lexes that are not left to phonetic rules stay as they are. -/
theorem seedEach_settled {generator : Generator} {xs : List Lexis} (settled : ∀ x ∈ xs, x.isGenerated = false)
    (g : Graph) (picks : Picks) : seedEach generator xs g picks = (.ok g, picks) := by
  induction xs with
  | nil => rfl
  | cons x xs ih =>
    obtain ⟨here, later⟩ := List.forall_mem_cons.mp settled
    rw [seedEach, if_neg (by simp [here]), ih later]

/-- Each lexis is either still to come or not left without a reason. -/
theorem seedEach_mute {generator : Generator} {xs : List Lexis} {g h : Graph} {picks after : Picks}
    (pending : ∀ y ∈ g.nodes, y.isGenerated = true → y ∈ xs ∨ generator.Mute y.generate)
    (run : seedEach generator xs g picks = (.ok h, after)) :
    ∀ y ∈ h.nodes, y.isGenerated = true → generator.Mute y.generate := by
  induction xs generalizing g picks with
  | nil =>
    obtain ⟨⟩ := run
    intro y member left
    exact (pending y member left).resolve_left List.not_mem_nil
  | cons x xs ih =>
    unfold seedEach at run
    split at run
    · split at run
      · next w rest made =>
        refine ih ?_ run
        intro y member left
        -- The lexis itself is replaced, so that among the old ones only those still to come are left.
        rcases mem_set member with rfl | ⟨old, other⟩
        · obtain rfl := Lexis.eq_empty_of_isGenerated left
          exact .inr ⟨picks, rest, made⟩
        · rcases pending y old left with here | mute
          · exact .inl ((List.mem_cons.mp here).resolve_left fun same => other (same ▸ rfl))
          · exact .inr mute
      · cases run
    · next given =>
      refine ih ?_ run
      intro y member left
      rcases pending y member left with here | mute
      · exact .inl ((List.mem_cons.mp here).resolve_left fun same => given (same ▸ left))
      · exact .inr mute

theorem seed_mute {generator : Generator} {g h : Graph} {picks after : Picks}
    (run : g.seed generator picks = (.ok h, after)) :
    ∀ y ∈ h.nodes, y.isGenerated = true → generator.Mute y.generate :=
  seedEach_mute (fun _ member _ => .inl member) run

end Graph

end Etymology
