import Etymology.Proofs.Graph.Acyclic
import Etymology.Proofs.Graph.Growth

namespace Etymology.Graph

variable {g h : Graph} {news : List Lexis} {finished : List String} {path : List Visit}

/-- What the search does with a link that leads to a lexis. -/
theorem explore_link {id : String} {e : Etymon} {pending : List Etymon} {x : Lexis}
    (found : g.get? e.ancestor = some x) :
    g.explore finished (⟨id, e :: pending⟩ :: path) =
      if e.ancestor = id ∨ e.ancestor ∈ path.map Visit.id then
        (finished, some (closedPath e.ancestor (id :: path.map Visit.id)))
      else if e.ancestor ∈ finished then g.explore finished (⟨id, pending⟩ :: path)
      else g.explore finished (⟨x.id, x.etymons⟩ :: ⟨id, pending⟩ :: path) := by
  rw [explore]
  split
  · next absent => cases absent.symm.trans found
  · next y atLink =>
    obtain rfl := Option.some.inj (atLink.symm.trans found)
    rfl

/-- From what was there the search goes the ways that it went, as long as no link led out of the graph. -/
theorem GrownBy.explore_of_old (grown : g.GrownBy h news) (closed : g.Closed)
    (inside : ∀ v ∈ path, ∀ e ∈ v.pending, e.ancestor ∈ g.ids) : h.explore finished path = g.explore finished path := by
  fun_induction g.explore finished path with
  | case1 finished => rw [explore]
  | case2 finished id path ih =>
    rw [explore]
    exact ih (List.forall_mem_cons.mp inside).2
  | case3 finished id e pending path absent ih =>
    exact absurd (inside _ List.mem_cons_self e List.mem_cons_self) (get?_eq_none.mp absent)
  | case4 finished id e pending path x found on =>
    rw [explore_link (grown.get?_of_old found), if_pos on]
  | case5 finished id e pending path x found off done ih =>
    rw [explore_link (grown.get?_of_old found), if_neg off, if_pos done]
    obtain ⟨here, below⟩ := List.forall_mem_cons.mp inside
    exact ih (List.forall_mem_cons.mpr ⟨(List.forall_mem_cons.mp here).2, below⟩)
  | case6 finished id e pending path x found off fresh ih =>
    rw [explore_link (grown.get?_of_old found), if_neg off, if_neg fresh]
    obtain ⟨here, below⟩ := List.forall_mem_cons.mp inside
    refine ih (List.forall_mem_cons.mpr ⟨closed x (mem_of_get? found), ?_⟩)
    exact List.forall_mem_cons.mpr ⟨(List.forall_mem_cons.mp here).2, below⟩

/-- A lexis all of whose links lead to others that are finished is finished at once. -/
theorem explore_of_finished {id : String} {links : List Etymon} (present : ∀ e ∈ links, e.ancestor ∈ g.ids)
    (done : ∀ e ∈ links, e.ancestor ∈ finished ∧ e.ancestor ≠ id) :
    g.explore finished [⟨id, links⟩] = (id :: finished, none) := by
  induction links with
  | nil => rw [explore, explore]
  | cons e links ih =>
    obtain ⟨here, presentLater⟩ := List.forall_mem_cons.mp present
    obtain ⟨⟨known, other⟩, doneLater⟩ := List.forall_mem_cons.mp done
    obtain ⟨x, found⟩ := exists_get?_of_mem_ids here
    rw [explore_link found, if_neg (by simpa using other), if_pos known]
    exact ih presentLater doneLater

/-- Once all that was there is finished, the search finds nothing from what is new. -/
theorem GrownBy.findCycleFrom_news (grown : g.GrownBy h news) (reached : ∀ id ∈ g.ids, id ∈ finished) :
    h.findCycleFrom finished news = none := by
  have rooted := grown.rooted
  have distinct := h.ids_nodup
  rw [grown.nodes, List.map_append, List.nodup_append] at distinct
  obtain ⟨-, -, apart⟩ := distinct
  have present : ∀ id ∈ g.ids, id ∈ h.ids := fun id member => grown.ids ▸ List.mem_append_left _ member
  clear grown
  induction news generalizing finished with
  | nil => rfl
  | cons x news ih =>
    obtain ⟨here, later⟩ := List.forall_mem_cons.mp rooted
    have apartLater : ∀ a ∈ g.nodes.map Lexis.id, ∀ b ∈ news.map Lexis.id, a ≠ b := fun a old b new =>
      apart a old b (List.mem_cons_of_mem x.id new)
    have run : h.explore finished [⟨x.id, x.etymons⟩] = (x.id :: finished, none) :=
      explore_of_finished (fun e link => present _ (here e link)) fun e link =>
        ⟨reached _ (here e link), apart _ (here e link) _ List.mem_cons_self⟩
    rw [findCycleFrom, run]
    split
    · exact ih reached later apartLater
    · exact ih (fun id member => List.mem_cons_of_mem x.id (reached id member)) later apartLater

/-- From some of what was there the search comes to the cycle that it came to, or to none, and has finished them. -/
theorem GrownBy.findCycleFrom_append (grown : g.GrownBy h news) (closed : g.Closed) (finished : List String)
    {starts : List Lexis} (inside : ∀ x ∈ starts, x ∈ g.nodes) :
    ∃ finished', (g.findCycleFrom finished starts = none → (∀ id ∈ finished, id ∈ finished') ∧
        ∀ x ∈ starts, x.id ∈ finished') ∧
      h.findCycleFrom finished (starts ++ news) =
        (g.findCycleFrom finished starts).or (h.findCycleFrom finished' news) := by
  induction starts generalizing finished with
  | nil => exact ⟨finished, fun _ => ⟨fun _ member => member, fun x member => absurd member List.not_mem_nil⟩, rfl⟩
  | cons x starts ih =>
    obtain ⟨here, later⟩ := List.forall_mem_cons.mp inside
    rw [List.cons_append, findCycleFrom, findCycleFrom]
    split
    · next done =>
      obtain ⟨finished', reached, same⟩ := ih finished later
      refine ⟨finished', fun quiet => ?_, same⟩
      obtain ⟨kept, all⟩ := reached quiet
      exact ⟨kept, List.forall_mem_cons.mpr ⟨kept _ (by simpa using done), all⟩⟩
    · have goes : h.explore finished [⟨x.id, x.etymons⟩] = g.explore finished [⟨x.id, x.etymons⟩] :=
        grown.explore_of_old closed (by simpa using closed x here)
      rw [goes]
      split
      · exact ⟨finished, fun quiet => absurd quiet (Option.some_ne_none _), rfl⟩
      · next more run =>
        obtain ⟨finished', reached, same⟩ := ih more later
        refine ⟨finished', fun quiet => ?_, same⟩
        obtain ⟨kept, all⟩ := reached quiet
        obtain ⟨before, start⟩ := explore_finished (congrArg Prod.snd run)
        rw [run] at before start
        refine ⟨fun id member => kept id (before id member), ?_⟩
        exact List.forall_mem_cons.mpr ⟨kept _ (start _ List.mem_cons_self), all⟩

/-- The search reports the cycle that it reported, if any. -/
theorem GrownBy.findCycle?_eq (grown : g.GrownBy h news) (closed : g.Closed) : h.findCycle? = g.findCycle? := by
  obtain ⟨finished, reached, same⟩ := grown.findCycleFrom_append closed [] fun x member => member
  rw [findCycle?, grown.nodes, same, findCycle?]
  cases quiet : g.findCycleFrom [] g.nodes with
  | some cycle => rfl
  | none =>
    refine grown.findCycleFrom_news fun id member => ?_
    obtain ⟨x, inside, rfl⟩ := List.mem_map.mp member
    exact (reached quiet).2 x inside

end Etymology.Graph
