import Etymology.Proofs.Graph.Growth

namespace Etymology.Graph

/-- Adds lexes one after the other, up to the first whose id is taken. -/
def insertEach : List Lexis → Graph → Graph × Except Fault Unit
  | [], g => (g, .ok ())
  | x :: xs, g =>
    if g.contains x.id then (g, .error (.duplicate (.entry x.id)))
    else match g.add x with
      | .ok g => insertEach xs g
      | .error fault => (g, .error fault)

theorem insertEach_append (xs ys : List Lexis) (g : Graph) :
    insertEach (xs ++ ys) g = match insertEach xs g with
      | (g, .ok ()) => insertEach ys g
      | (g, .error fault) => (g, .error fault) := by
  induction xs generalizing g with
  | nil => rfl
  | cons x xs ih =>
    simp only [List.cons_append, insertEach]
    split
    · rfl
    · cases g.add x with
      | error fault => rfl
      | ok h => exact ih h

/-- All lexes are added exactly if no two have one id and none has an id that is taken; otherwise the
first that cannot be added is refused as a duplicate. -/
theorem insertEach_eq (xs : List Lexis) (g : Graph) :
    ((g.ids ++ xs.map Lexis.id).Nodup ∧ ∃ h, insertEach xs g = (h, .ok ()) ∧ h.nodes = g.nodes ++ xs) ∨
      (¬ (g.ids ++ xs.map Lexis.id).Nodup ∧ ∃ h kind, insertEach xs g = (h, .error (.duplicate kind))) := by
  induction xs generalizing g with
  | nil => exact Or.inl ⟨by simpa [ids] using g.ids_nodup, g, rfl, (List.append_nil _).symm⟩
  | cons x xs ih =>
    cases taken : g.contains x.id with
    | true =>
      refine Or.inr ⟨fun distinct => ?_, g, _, by rw [insertEach, if_pos taken]⟩
      exact (List.nodup_append.mp distinct).2.2 x.id (contains_eq_true.mp taken) x.id (by simp) rfl
    | false =>
      obtain ⟨h, added, nodes⟩ := add_eq (contains_eq_false.mp taken)
      have ids : g.ids ++ (x :: xs).map Lexis.id = h.ids ++ xs.map Lexis.id := by
        simp [Graph.ids, nodes]
      have run : insertEach (x :: xs) g = insertEach xs h := by
        simp only [insertEach, taken, added]
        rfl
      rw [ids, run]
      rcases ih h with ⟨distinct, k, done, later⟩ | refused
      · exact Or.inl ⟨distinct, k, done, by rw [later, nodes, List.append_assoc]; rfl⟩
      · exact Or.inr refused

end Etymology.Graph
