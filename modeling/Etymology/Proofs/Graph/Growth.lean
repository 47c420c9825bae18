import Etymology.Proofs.Graph.Links

namespace Etymology.Graph

theorem add_eq {g : Graph} {x : Lexis} (fresh : x.id ∉ g.ids) :
    ∃ h, g.add x = .ok h ∧ h.nodes = g.nodes ++ [x] := by
  unfold add
  rw [dif_neg (by rwa [contains_eq_true])]
  exact ⟨_, rfl, rfl⟩

/-- The second graph has the lexes of the first and behind them others, all of whose links lead to the
first. -/
structure GrownBy (g h : Graph) (news : List Lexis) : Prop where
  nodes : h.nodes = g.nodes ++ news
  rooted : ∀ x ∈ news, ∀ e ∈ x.etymons, e.ancestor ∈ g.ids

/-- No link of the graph leads out of it. -/
def Closed (g : Graph) : Prop :=
  ∀ x ∈ g.nodes, ∀ e ∈ x.etymons, e.ancestor ∈ g.ids

section Grown

variable {g h : Graph} {news : List Lexis} {a b id : String} {x : Lexis}

theorem GrownBy.get?_of_old (grown : g.GrownBy h news) (found : g.get? id = some x) : h.get? id = some x := by
  obtain ⟨member, same⟩ := get?_eq_some.mp found
  exact get?_eq_some.mpr ⟨grown.nodes ▸ List.mem_append_left news member, same⟩

theorem GrownBy.get?_of_new (grown : g.GrownBy h news) (member : x ∈ news) : h.get? x.id = some x :=
  get?_of_mem (grown.nodes ▸ List.mem_append_right g.nodes member)

theorem GrownBy.ids (grown : g.GrownBy h news) : h.ids = g.ids ++ news.map Lexis.id := by
  rw [Graph.ids, grown.nodes, List.map_append, Graph.ids]

theorem GrownBy.closed (grown : g.GrownBy h news) (closed : g.Closed) : h.Closed := by
  intro x member e link
  rw [grown.ids]
  rw [grown.nodes] at member
  rcases List.mem_append.mp member with old | new
  · exact List.mem_append_left _ (closed x old e link)
  · exact List.mem_append_left _ (grown.rooted x new e link)

/-- Links lead to lexes that were there, and those between them were there too. -/
theorem GrownBy.linked (grown : g.GrownBy h news) (closed : g.Closed) (linked : h.Linked a b) :
    b ∈ g.ids ∧ (a ∈ g.ids → g.Linked a b) := by
  obtain ⟨x, y, atA, atB, e, link, rfl⟩ := linked
  obtain ⟨member, same⟩ := get?_eq_some.mp atA
  rw [grown.nodes] at member
  have inside : e.ancestor ∈ g.ids := by
    rcases List.mem_append.mp member with old | new
    · exact closed x old e link
    · exact grown.rooted x new e link
  refine ⟨inside, fun present => ?_⟩
  obtain ⟨z, atA'⟩ := exists_get?_of_mem_ids present
  obtain ⟨w, atB'⟩ := exists_get?_of_mem_ids inside
  obtain rfl : x = z := Option.some.inj (atA.symm.trans (grown.get?_of_old atA'))
  exact ⟨x, w, atA', atB', e, link, rfl⟩

theorem GrownBy.transGen_linked (grown : g.GrownBy h news) (closed : g.Closed)
    (leads : Relation.TransGen h.Linked a b) : b ∈ g.ids ∧ (a ∈ g.ids → Relation.TransGen g.Linked a b) := by
  induction leads with
  | single link =>
    obtain ⟨inside, linked⟩ := grown.linked closed link
    exact ⟨inside, fun present => .single (linked present)⟩
  | tail _ link ih =>
    obtain ⟨inside, linked⟩ := grown.linked closed link
    exact ⟨inside, fun present => .tail (ih.2 present) (linked ih.1)⟩

/-- Nothing that is new lies on a circle. -/
theorem GrownBy.acyclic (grown : g.GrownBy h news) (closed : g.Closed)
    (acyclic : ∀ id, ¬ Relation.TransGen g.Linked id id) (id : String) :
    ¬ Relation.TransGen h.Linked id id := by
  intro around
  obtain ⟨inside, leads⟩ := grown.transGen_linked closed around
  exact acyclic id (leads inside)

end Grown

end Etymology.Graph
