import Etymology.Proofs.Control
import Etymology.Proofs.Graph.Acyclic
import Etymology.Proofs.Graph.Circle

namespace Etymology.Graph

/-- The path of a search, from its deepest visit: links of the graph lead along it, no lexis is met
twice, and what is pending at a lexis are links of that lexis. -/
structure Trail (g : Graph) (path : List Visit) : Prop where
  visits : ∀ v ∈ path, ∃ x, g.get? v.id = some x ∧ ∀ e ∈ v.pending, e ∈ x.etymons
  distinct : (path.map Visit.id).Nodup
  chain : (path.map Visit.id).IsChain fun upper lower => g.Linked lower upper

section Trail

variable {g : Graph} {id : String} {e : Etymon} {pending : List Etymon} {path : List Visit} {x : Lexis}

theorem Trail.start (found : g.get? x.id = some x) : g.Trail [⟨x.id, x.etymons⟩] where
  visits := by
    intro v member
    obtain rfl := List.mem_singleton.mp member
    exact ⟨x, found, fun e link => link⟩
  distinct := List.nodup_singleton _
  chain := .singleton _

theorem Trail.finish {v : Visit} (trail : g.Trail (v :: path)) : g.Trail path where
  visits := fun w member => trail.visits w (List.mem_cons_of_mem v member)
  distinct := (List.nodup_cons.mp trail.distinct).2
  chain := trail.chain.tail

theorem Trail.skip (trail : g.Trail (⟨id, e :: pending⟩ :: path)) : g.Trail (⟨id, pending⟩ :: path) where
  visits := by
    obtain ⟨⟨x, found, links⟩, below⟩ := List.forall_mem_cons.mp trail.visits
    refine List.forall_mem_cons.mpr ⟨⟨x, found, fun d member => ?_⟩, below⟩
    exact links d (List.mem_cons_of_mem e member)
  distinct := trail.distinct
  chain := trail.chain

/-- The link that the deepest visit has come to is one of the graph, if it leads anywhere. -/
theorem Trail.linked (trail : g.Trail (⟨id, e :: pending⟩ :: path)) (found : g.get? e.ancestor = some x) :
    g.Linked id e.ancestor := by
  obtain ⟨y, here, links⟩ := trail.visits _ List.mem_cons_self
  exact ⟨y, x, here, found, e, links e List.mem_cons_self, rfl⟩

theorem Trail.enter (trail : g.Trail (⟨id, e :: pending⟩ :: path)) (found : g.get? e.ancestor = some x)
    (off : ¬ (e.ancestor = id ∨ e.ancestor ∈ path.map Visit.id)) :
    g.Trail (⟨x.id, x.etymons⟩ :: ⟨id, pending⟩ :: path) := by
  have same := id_of_get? found
  have linked := trail.linked found
  rw [← same] at off linked
  refine ⟨?_, ?_, ?_⟩
  · exact List.forall_mem_cons.mpr ⟨⟨x, get?_self found, fun e link => link⟩, trail.skip.visits⟩
  · exact List.nodup_cons.mpr ⟨fun again => off (List.mem_cons.mp again), trail.distinct⟩
  · exact .cons_cons linked trail.chain

/-- A link back to the path closes a circle. -/
theorem Trail.circle (trail : g.Trail (⟨id, e :: pending⟩ :: path)) (found : g.get? e.ancestor = some x)
    (back : e.ancestor ∈ id :: path.map Visit.id) :
    Circle g.Linked e.ancestor (closedPath e.ancestor (id :: path.map Visit.id)) := by
  have linked := trail.linked found
  obtain ⟨above, below, split, first⟩ := List.eq_append_cons_of_mem back
  have taken : (id :: path.map Visit.id).takeWhile (· != e.ancestor) = above := by
    rw [split, List.takeWhile_append_of_pos, List.takeWhile_cons_of_neg, List.append_nil]
    · simp
    · intro a member
      rw [bne_iff_ne]
      rintro rfl
      exact first member
  -- Read from the lowest lexis on, the path is a chain that ends where the link starts.
  have turned : (id :: path.map Visit.id).reverse = below.reverse ++ e.ancestor :: above.reverse := by
    simp [split]
  have chain : (below.reverse ++ e.ancestor :: above.reverse).IsChain g.Linked := by
    rw [← turned]
    exact List.isChain_reverse.mpr trail.chain
  have distinct : (below.reverse ++ e.ancestor :: above.reverse).Nodup := by
    rw [← turned]
    exact List.nodup_reverse.mpr trail.distinct
  have deepest : (e.ancestor :: above.reverse).getLast? = some id := by
    cases above with
    | nil =>
      obtain ⟨rfl, -⟩ := List.cons.inj split
      rfl
    | cons a above =>
      obtain ⟨rfl, -⟩ := List.cons.inj split
      rw [List.reverse_cons, ← List.cons_append, List.getLast?_concat]
  rw [closedPath, taken]
  exact Circle.of_chain chain distinct deepest linked

end Trail

/-- What an exploration reports is a circle of links. -/
theorem explore_circle {g : Graph} {finished : List String} {path : List Visit} {cycle : List String}
    (trail : g.Trail path) (reported : (g.explore finished path).2 = some cycle) :
    ∃ v, Circle g.Linked v cycle := by
  fun_induction g.explore finished path with
  | case1 => cases reported
  | case2 finished id path ih => exact ih trail.finish reported
  | case3 finished id e pending path absent ih => exact ih trail.skip reported
  | case4 finished id e pending path x found on =>
    obtain rfl := Option.some.inj reported
    exact ⟨e.ancestor, trail.circle found (List.mem_cons.mpr on)⟩
  | case5 finished id e pending path x found off done ih => exact ih trail.skip reported
  | case6 finished id e pending path x found off fresh ih => exact ih (trail.enter found off) reported

theorem findCycleFrom_circle {g : Graph} {finished : List String} {starts : List Lexis}
    {cycle : List String} (inside : ∀ x ∈ starts, x ∈ g.nodes)
    (reported : g.findCycleFrom finished starts = some cycle) : ∃ v, Circle g.Linked v cycle := by
  induction starts generalizing finished with
  | nil => cases reported
  | cons x starts ih =>
    obtain ⟨here, later⟩ := List.forall_mem_cons.mp inside
    unfold findCycleFrom at reported
    split at reported
    · exact ih later reported
    · split at reported
      · next cycle' run =>
        obtain rfl := Option.some.inj reported
        exact explore_circle (.start (get?_of_mem here)) (by rw [run])
      · exact ih later reported

theorem findCycle?_eq_none_iff {g : Graph} :
    g.findCycle? = none ↔ ∀ id, ¬ Relation.TransGen g.Linked id id := by
  constructor
  · exact not_transGen_linked_of_findCycle?_eq_none
  · intro acyclic
    cases reported : g.findCycle? with
    | none => rfl
    | some cycle =>
      obtain ⟨v, circle⟩ := findCycleFrom_circle (fun x member => member) reported
      exact absurd circle.transGen (acyclic v)

/-- A turn of the search: the lexes that are still to be searched from, those that are finished, and
the path from its deepest visit. -/
def searchTurn (g : Graph) : List Lexis × List String × List Visit →
    (List Lexis × List String × List Visit) ⊕ Option (List String)
  | ([], _, []) => .inr none
  | (x :: starts, finished, []) =>
    if finished.contains x.id then .inl (starts, finished, [])
    else .inl (starts, finished, [⟨x.id, x.etymons⟩])
  | (starts, finished, ⟨id, []⟩ :: path) => .inl (starts, id :: finished, path)
  | (starts, finished, ⟨id, e :: pending⟩ :: path) =>
    match g.get? e.ancestor with
    | none => .inl (starts, finished, ⟨id, pending⟩ :: path)
    | some x =>
      if e.ancestor = id ∨ e.ancestor ∈ path.map Visit.id then
        .inr (some (closedPath e.ancestor (id :: path.map Visit.id)))
      else if e.ancestor ∈ finished then .inl (starts, finished, ⟨id, pending⟩ :: path)
      else .inl (starts, finished, ⟨x.id, x.etymons⟩ :: ⟨id, pending⟩ :: path)

/-- An exploration comes to an end by turns: with the cycle that it reports, or with an empty path. -/
theorem exists_endsIn_explore {g : Graph} {starts : List Lexis} {finished : List String}
    {path : List Visit} {result : Option (List String)}
    (rest : (g.explore finished path).2 = none →
      ∃ n, EndsIn g.searchTurn n (starts, (g.explore finished path).1, []) result)
    (reported : ∀ cycle, (g.explore finished path).2 = some cycle → result = some cycle) :
    ∃ n, EndsIn g.searchTurn n (starts, finished, path) result := by
  fun_induction g.explore finished path with
  | case1 finished => exact rest rfl
  | case2 finished id path ih =>
    obtain ⟨n, ends⟩ := ih rest reported
    exact ⟨n + 1, .next (by simp only [searchTurn]) ends⟩
  | case3 finished id e pending path absent ih =>
    obtain ⟨n, ends⟩ := ih rest reported
    exact ⟨n + 1, .next (by simp only [searchTurn, absent]) ends⟩
  | case4 finished id e pending path x found on =>
    obtain rfl := reported _ rfl
    exact ⟨1, .result (by simp only [searchTurn, found, on, if_true])⟩
  | case5 finished id e pending path x found off done ih =>
    obtain ⟨n, ends⟩ := ih rest reported
    exact ⟨n + 1, .next (by simp only [searchTurn, found, off, done, if_true, if_false]) ends⟩
  | case6 finished id e pending path x found off fresh ih =>
    obtain ⟨n, ends⟩ := ih rest reported
    exact ⟨n + 1, .next (by simp only [searchTurn, found, off, fresh, if_false]) ends⟩

theorem exists_endsIn_findCycleFrom (g : Graph) (finished : List String) (starts : List Lexis) :
    ∃ n, EndsIn g.searchTurn n (starts, finished, []) (g.findCycleFrom finished starts) := by
  induction starts generalizing finished with
  | nil => exact ⟨1, .result rfl⟩
  | cons x starts ih =>
    unfold findCycleFrom
    split
    · next done =>
      obtain ⟨n, ends⟩ := ih finished
      exact ⟨n + 1, .next (by simp only [searchTurn, done, if_true]) ends⟩
    · next fresh =>
      have explored : ∀ result,
          ((g.explore finished [⟨x.id, x.etymons⟩]).2 = none →
            ∃ n, EndsIn g.searchTurn n (starts, (g.explore finished [⟨x.id, x.etymons⟩]).1, []) result) →
          (∀ cycle, (g.explore finished [⟨x.id, x.etymons⟩]).2 = some cycle → result = some cycle) →
          ∃ n, EndsIn g.searchTurn n (x :: starts, finished, []) result := by
        intro result rest reported
        obtain ⟨n, ends⟩ := exists_endsIn_explore rest reported
        exact ⟨n + 1, .next (by simp only [searchTurn, fresh, Bool.false_eq_true, if_false]) ends⟩
      split
      · next cycle run => exact explored _ (by simp [run]) (by simp [run])
      · next finished' run => exact explored _ (by simpa [run] using ih finished') (by simp [run])

/-- The search comes to an end. It finds nothing exactly where no lexis is linked to itself, directly
or through others; otherwise it reports a circle of links, which is as short as `[v, v]` where lexes
are linked to themselves only. -/
theorem findCycle?_decides (g : Graph) :
    (∃ n, EndsIn g.searchTurn n (g.nodes, [], []) g.findCycle?) ∧
      (g.findCycle? = none ↔ ∀ id, ¬ Relation.TransGen g.Linked id id) ∧
      ∀ cycle, g.findCycle? = some cycle →
        (∃ v, Circle g.Linked v cycle) ∧
          ((∀ a b, g.Linked a b → Relation.TransGen g.Linked b a → a = b) → ∃ v, cycle = [v, v]) := by
  refine ⟨g.exists_endsIn_findCycleFrom [] g.nodes, findCycle?_eq_none_iff, ?_⟩
  intro cycle reported
  obtain ⟨v, circle⟩ := findCycleFrom_circle (fun x member => member) reported
  exact ⟨⟨v, circle⟩, fun loops => ⟨v, circle.eq_pair loops⟩⟩

end Etymology.Graph
