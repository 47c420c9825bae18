import Etymology.Graph.Descendants
import Etymology.Proofs.Control
import Etymology.Proofs.Graph.Circle
import Etymology.Proofs.Graph.Links

namespace Etymology.Graph

theorem mem_children {g : Graph} {a b : String} :
    b ∈ g.children a ↔ ∃ x, g.get? b = some x ∧ ∃ e ∈ x.etymons, e.ancestor = a := by
  simp only [children, List.mem_flatMap, List.mem_map, List.mem_filter, beq_iff_eq]
  constructor
  · rintro ⟨x, member, e, ⟨link, leads⟩, rfl⟩
    exact ⟨x, get?_of_mem member, e, link, leads⟩
  · rintro ⟨x, found, e, link, leads⟩
    exact ⟨x, mem_of_get? found, e, ⟨link, leads⟩, id_of_get? found⟩

/-- Of an id that the graph has, the children are the lexes linked to it. -/
theorem mem_children_iff_linked {g : Graph} {a b : String} (present : a ∈ g.ids) :
    b ∈ g.children a ↔ g.Linked b a := by
  obtain ⟨y, atA⟩ := exists_get?_of_mem_ids present
  rw [mem_children]
  constructor
  · rintro ⟨x, atB, link⟩
    exact ⟨x, y, atB, atA, link⟩
  · rintro ⟨x, -, atB, -, link⟩
    exact ⟨x, atB, link⟩

theorem mem_ids_of_linked {g : Graph} {a b : String} (linked : g.Linked a b) : a ∈ g.ids := by
  obtain ⟨x, -, found, -⟩ := linked
  exact mem_ids_of_get? found

theorem mem_ids_of_transGen_linked {g : Graph} {a b : String} (leads : Relation.TransGen g.Linked a b) :
    a ∈ g.ids := by
  obtain ⟨c, first, -⟩ := Relation.TransGen.head'_iff.mp leads
  exact mem_ids_of_linked first

section Closure

variable (g : Graph) (found stack : List String)

/-- What is found stays, and what is on the stack is found. -/
theorem mem_closure_of_mem {a : String} (member : a ∈ found ∨ a ∈ stack) : a ∈ g.closure found stack := by
  fun_induction g.closure found stack with
  | case1 found => simpa using member
  | case2 found id stack again ih =>
    have known : id ∈ found := by simpa using again
    apply ih
    rcases member with old | new
    · exact .inl old
    · rcases List.mem_cons.mp new with rfl | later
      · exact .inl known
      · exact .inr later
  | case3 found id stack fresh ih =>
    apply ih
    rcases member with old | new
    · exact .inl (List.mem_cons_of_mem id old)
    · rcases List.mem_cons.mp new with rfl | later
      · exact .inl List.mem_cons_self
      · exact .inr (List.mem_append_right _ later)

/-- The closure is closed: while it grows, the children of what is found are found or on the stack. -/
theorem mem_closure_of_children (waits : ∀ a ∈ found, ∀ b ∈ g.children a, b ∈ found ∨ b ∈ stack) :
    ∀ a ∈ g.closure found stack, ∀ b ∈ g.children a, b ∈ g.closure found stack := by
  fun_induction g.closure found stack with
  | case1 found => simpa using waits
  | case2 found id stack again ih =>
    have known : id ∈ found := by simpa using again
    refine ih fun a member b child => ?_
    rcases waits a member b child with old | new
    · exact .inl old
    · rcases List.mem_cons.mp new with rfl | later
      · exact .inl known
      · exact .inr later
  | case3 found id stack fresh ih =>
    refine ih fun a member b child => ?_
    rcases List.mem_cons.mp member with rfl | old
    · exact .inr (List.mem_append_left _ child)
    · rcases waits a old b child with earlier | new
      · exact .inl (List.mem_cons_of_mem id earlier)
      · rcases List.mem_cons.mp new with rfl | later
        · exact .inl List.mem_cons_self
        · exact .inr (List.mem_append_right _ later)

/-- All that is found besides descends from the stack. -/
theorem reach_of_mem_closure {a : String} (member : a ∈ g.closure found stack) :
    a ∈ found ∨ ∃ s ∈ stack, Relation.ReflTransGen (fun b c => c ∈ g.children b) s a := by
  fun_induction g.closure found stack with
  | case1 found => exact .inl member
  | case2 found id stack again ih =>
    rcases ih member with old | ⟨s, inside, reach⟩
    · exact .inl old
    · exact .inr ⟨s, List.mem_cons_of_mem id inside, reach⟩
  | case3 found id stack fresh ih =>
    rcases ih member with new | ⟨s, inside, reach⟩
    · rcases List.mem_cons.mp new with rfl | old
      · exact .inr ⟨a, List.mem_cons_self, .refl⟩
      · exact .inl old
    · rcases List.mem_append.mp inside with child | later
      · exact .inr ⟨id, List.mem_cons_self, .head child reach⟩
      · exact .inr ⟨s, List.mem_cons_of_mem id later, reach⟩

/-- Nothing is found twice. -/
theorem nodup_closure (distinct : found.Nodup) : (g.closure found stack).Nodup := by
  fun_induction g.closure found stack with
  | case1 found => exact distinct
  | case2 found id stack again ih => exact ih distinct
  | case3 found id stack fresh ih => exact ih (List.nodup_cons.mpr ⟨by simpa using fresh, distinct⟩)

end Closure

section Turns

variable {g : Graph}

/-- A turn of the search, with what is found and what is on the stack: the next id is dropped if it was found
before; otherwise it is found now, and its children go on the stack. -/
def closureTurn (g : Graph) : List String × List String → (List String × List String) ⊕ List String
  | (found, []) => .inr found
  | (found, id :: stack) =>
    if found.contains id then .inl (found, stack) else .inl (id :: found, g.children id ++ stack)

/-- How much the search has before it: the ids on the stack, and those that are to come on it by links to
what is not found yet. -/
def closureWeight (g : Graph) (state : List String × List String) : Nat :=
  state.2.length + g.ancestors.countP fun a => !state.1.contains a

/-- What is found is no longer to come. -/
theorem count_add_countP_fresh {id : String} {found : List String} (fresh : id ∉ found) (ids : List String) :
    ids.count id + ids.countP (fun a => !(id :: found).contains a) = ids.countP fun a => !found.contains a := by
  induction ids with
  | nil => rfl
  | cons a ids ih =>
    rw [List.count_cons, List.countP_cons, List.countP_cons]
    by_cases here : a = id
    · subst here
      have known : (!(a :: found).contains a) = false := by simp
      have missing : (!found.contains a) = true := by simpa using fresh
      simp only [known, missing, beq_self_eq_true, if_true, Bool.false_eq_true, if_false]
      omega
    · have same : (!(id :: found).contains a) = !found.contains a := by simp [here]
      have other : (a == id) = false := by simpa using here
      simp only [same, other, Bool.false_eq_true, if_false]
      omega

theorem lighter_of_closureTurn {s t : List String × List String} (step : g.closureTurn s = .inl t) :
    g.closureWeight t < g.closureWeight s := by
  obtain ⟨found, stack⟩ := s
  cases stack with
  | nil => cases step
  | cons id stack =>
    rw [closureTurn] at step
    split at step
    · cases step
      simp only [closureWeight, List.length_cons]
      omega
    · next fresh =>
      cases step
      have children := g.length_children id
      have rest := count_add_countP_fresh (by simpa using fresh) g.ancestors
      simp only [closureWeight, List.length_cons, List.length_append]
      omega

/-- What the turns come to is the closure. -/
theorem closure_eq_of_endsIn {n : Nat} {s : List String × List String} {ids : List String}
    (ends : EndsIn g.closureTurn n s ids) : g.closure s.1 s.2 = ids := by
  induction ends with
  | @result s ids step =>
    obtain ⟨found, stack⟩ := s
    cases stack with
    | nil =>
      rw [closure]
      exact Sum.inr.inj step
    | cons id stack =>
      rw [closureTurn] at step
      split at step <;> cases step
  | @next s t ids n step _ ih =>
    obtain ⟨found, stack⟩ := s
    cases stack with
    | nil => cases step
    | cons id stack =>
      rw [closureTurn] at step
      rw [closure]
      split at step
      · next again =>
        cases step
        rw [if_pos again]
        exact ih
      · next fresh =>
        cases step
        rw [if_neg fresh]
        exact ih

/-- The search takes no more turns than twice the number of links, and one. -/
theorem exists_endsIn_closure (g : Graph) (id : String) :
    ∃ n ≤ 2 * g.ancestors.length + 1,
      EndsIn g.closureTurn n ([], g.children id) (g.closure [] (g.children id)) := by
  obtain ⟨n, few, ids, ends⟩ := exists_endsIn g.closureWeight (fun _ _ => lighter_of_closureTurn) ([], g.children id)
  obtain rfl := closure_eq_of_endsIn ends
  refine ⟨n, ?_, ends⟩
  have children := g.length_children id
  have once : g.ancestors.count id ≤ g.ancestors.length := List.count_le_length
  have all : g.ancestors.countP (fun a => !List.contains [] a) ≤ g.ancestors.length := List.countP_le_length
  simp only [closureWeight] at few
  omega

end Turns

/-- Whatever descends through children from an id of the graph leads to it by links. -/
theorem transGen_linked_of_children {g : Graph} {id a : String} (present : id ∈ g.ids)
    (below : Relation.TransGen (fun b c => c ∈ g.children b) id a) : Relation.TransGen g.Linked a id := by
  induction below with
  | single child => exact .single ((mem_children_iff_linked present).mp child)
  | tail _ child ih =>
    exact .head ((mem_children_iff_linked (mem_ids_of_transGen_linked ih)).mp child) ih

theorem descendants_of_mem_ids {g : Graph} {id : String} (present : id ∈ g.ids) :
    g.descendants id = .ok (g.closure [] (g.children id)) := by
  obtain ⟨x, found⟩ := exists_get?_of_mem_ids present
  simp only [descendants, get, found]

/-- The descendants of a lexis are those that links lead from to it. -/
theorem mem_descendants {g : Graph} {id a : String} {ids : List String} (present : id ∈ g.ids)
    (listed : g.descendants id = .ok ids) : a ∈ ids ↔ Relation.TransGen g.Linked a id := by
  obtain rfl : g.closure [] (g.children id) = ids := by
    simpa [descendants_of_mem_ids present] using listed
  constructor
  · intro member
    rcases g.reach_of_mem_closure _ _ member with nothing | ⟨s, child, reach⟩
    · cases nothing
    · exact transGen_linked_of_children present (.head' child reach)
  · intro leads
    induction leads using Relation.TransGen.head_induction_on with
    | single link =>
      exact g.mem_closure_of_mem _ _ (.inr ((mem_children_iff_linked present).mpr link))
    | head first rest ih =>
      have child := (mem_children_iff_linked (mem_ids_of_transGen_linked rest)).mpr first
      exact g.mem_closure_of_children _ _ (by simp) _ ih _ child

/-- The descendants of an id that the graph has are found, each once, within a number of turns that the links
bound. They are the lexes from which links lead to the id, in one step or more, so that the id is among them
where it lies on a circle of links and only there. An id that the graph does not have is refused. -/
theorem descendants_transitive (g : Graph) (id : String) :
    (id ∈ g.ids → ∃ ids, g.descendants id = .ok ids ∧ ids.Nodup ∧
        (∃ n ≤ 2 * g.ancestors.length + 1, EndsIn g.closureTurn n ([], g.children id) ids) ∧
        (∀ a, a ∈ ids ↔ Relation.TransGen g.Linked a id) ∧
        (id ∈ ids ↔ ∃ path, Circle g.Linked id path)) ∧
      (id ∉ g.ids → g.descendants id = .error (.unknownReference id .lexis none)) := by
  constructor
  · intro present
    have listed := descendants_of_mem_ids present
    have members := fun a => mem_descendants (a := a) present listed
    exact ⟨_, listed, g.nodup_closure _ _ .nil, g.exists_endsIn_closure id, members,
      (members id).trans Circle.exists_iff.symm⟩
  · intro absent
    simp only [descendants, get, get?_eq_none.mpr absent]

/-- A lexis on a circle descends from itself, and one with two links to another descends from it once. -/
example :
    let g : Graph := {
      nodes := [
        { id := "hen", etymons := [⟨"egg", [], 0⟩, ⟨"nest", [], 1⟩] },
        { id := "egg", etymons := [⟨"hen", [], 0⟩, ⟨"hen", [], 1⟩] }]
      ids_nodup := by decide }
    g.descendants "egg" = .ok ["egg", "hen"] ∧ g.descendants "nest" = .error (.unknownReference "nest" .lexis none) := by
  decide +kernel

end Etymology.Graph
