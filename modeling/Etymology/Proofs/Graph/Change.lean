import Etymology.Proofs.Graph.Closure

namespace Etymology.Graph

/-- Both graphs have the id, and all other look-ups find the same. -/
structure ChangedAt (g h : Graph) (id : String) : Prop where
  elsewhere : ∀ a, a ≠ id → h.get? a = g.get? a
  before : id ∈ g.ids
  after : id ∈ h.ids

theorem ChangedAt.symm {g h : Graph} {id : String} (changed : g.ChangedAt h id) : h.ChangedAt g id where
  elsewhere := fun a other => (changed.elsewhere a other).symm
  before := changed.after
  after := changed.before

/-- Swapping lexes for others of their ids does so for what is looked up. -/
theorem get?_of_map {g h : Graph} {f : Lexis → Lexis} (same : ∀ x, (f x).id = x.id)
    (nodes : h.nodes = g.nodes.map f) (id : String) : h.get? id = (g.get? id).map f := by
  have kept : (fun x : Lexis => x.id == id) ∘ f = fun x => x.id == id := by
    funext x
    rw [Function.comp_apply, same]
  rw [get?, nodes, List.find?_map, kept, get?]

theorem get?_set (g : Graph) (y : Lexis) (id : String) :
    (g.set y).get? id = (g.get? id).map fun x => if x.id = y.id then y else x := by
  refine get?_of_map (fun x => ?_) rfl id
  split
  · next same => exact same.symm
  · rfl

theorem ids_set (g : Graph) (y : Lexis) : (g.set y).ids = g.ids := by
  change (g.nodes.map fun x => if x.id = y.id then y else x).map Lexis.id = g.nodes.map Lexis.id
  rw [List.map_map]
  refine List.map_congr_left fun x _ => ?_
  rw [Function.comp_apply]
  split
  · next same => exact same.symm
  · rfl

theorem get?_set_self {g : Graph} {y : Lexis} (present : y.id ∈ g.ids) : (g.set y).get? y.id = some y := by
  obtain ⟨x, found⟩ := exists_get?_of_mem_ids present
  rw [get?_set, found, Option.map_some, if_pos (id_of_get? found)]

/-- A lexis takes the place of the one with its id and leaves the others alone. -/
theorem nodes_set {g : Graph} {before after : List Lexis} {x y : Lexis} (nodes : g.nodes = before ++ x :: after)
    (same : y.id = x.id) : (g.set y).nodes = before ++ y :: after := by
  have distinct := g.ids_nodup
  rw [nodes, List.map_append, List.map_cons, List.nodup_append, List.nodup_cons] at distinct
  obtain ⟨-, ⟨later, -⟩, earlier⟩ := distinct
  have kept : ∀ {zs : List Lexis}, x.id ∉ zs.map Lexis.id → zs.map (fun z => if z.id = y.id then y else z) = zs := by
    intro zs apart
    refine (List.map_congr_left fun z member => if_neg fun again => ?_).trans (List.map_id zs)
    exact apart (List.mem_map.mpr ⟨z, member, again.trans same⟩)
  change g.nodes.map (fun z => if z.id = y.id then y else z) = _
  rw [nodes, List.map_append, List.map_cons, if_pos same.symm, kept later, kept]
  exact fun member => earlier _ member _ List.mem_cons_self rfl

/-- A lexis that takes the place of the one with its id changes the graph there. -/
theorem changedAt_set {g : Graph} {y : Lexis} (present : y.id ∈ g.ids) : g.ChangedAt (g.set y) y.id where
  elsewhere := by
    intro a other
    rw [get?_set]
    cases found : g.get? a with
    | none => rfl
    | some x =>
      have apart : x.id ≠ y.id := id_of_get? found ▸ other
      rw [Option.map_some, if_neg apart]
  before := present
  after := ids_set g y ▸ present

section ChangedAt

variable {g h : Graph} {id a b : String}

theorem ChangedAt.linked (changed : g.ChangedAt h id) (other : a ≠ id) (linked : g.Linked a b) :
    h.Linked a b := by
  obtain ⟨x, y, atA, atB, link⟩ := linked
  have atA' : h.get? a = some x := (changed.elsewhere a other).trans atA
  by_cases here : b = id
  · subst here
    obtain ⟨z, atB'⟩ := exists_get?_of_mem_ids changed.after
    exact ⟨x, z, atA', atB', link⟩
  · exact ⟨x, y, atA', (changed.elsewhere b here).trans atB, link⟩

/-- A way to the changed lexis that begins elsewhere is cut off where it first arrives. -/
theorem ChangedAt.transGen_linked (changed : g.ChangedAt h id) (other : a ≠ id)
    (leads : Relation.TransGen g.Linked a id) : Relation.TransGen h.Linked a id := by
  induction leads using Relation.TransGen.head_induction_on with
  | single link => exact .single (changed.linked other link)
  | @head a c first _ ih =>
    have kept := changed.linked other first
    by_cases here : c = id
    · exact here ▸ .single kept
    · exact .head kept (ih here)

theorem ChangedAt.transGen_linked_iff (changed : g.ChangedAt h id) (other : a ≠ id) :
    Relation.TransGen h.Linked a id ↔ Relation.TransGen g.Linked a id :=
  ⟨changed.symm.transGen_linked other, changed.transGen_linked other⟩

end ChangedAt

end Etymology.Graph
