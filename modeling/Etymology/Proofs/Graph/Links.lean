import Etymology.Graph.Basic
import Mathlib.Data.List.Nodup
import Mathlib.Logic.Relation

namespace Etymology

/-- Nothing that is well-founded from some point on leads back to that point. -/
theorem not_transGen_self_of_acc {α : Type} {r : α → α → Prop} {a : α}
    (grounded : Acc (fun b a => r a b) a) : ¬ Relation.TransGen r a a := by
  induction grounded with
  | intro a _ ih =>
    intro around
    obtain ⟨b, first, back⟩ := Relation.TransGen.head'_iff.mp around
    exact ih b first (Relation.TransGen.tail' back first)

namespace Graph

theorem get?_of_mem {g : Graph} {x : Lexis} (member : x ∈ g.nodes) : g.get? x.id = some x := by
  cases found : g.get? x.id with
  | none => exact absurd (List.mem_map.mpr ⟨x, member, rfl⟩) (get?_eq_none.mp found)
  | some y =>
    have same : y = x := List.inj_on_of_nodup_map g.ids_nodup (mem_of_get? found) member (id_of_get? found)
    rw [same]

theorem get?_eq_some {g : Graph} {id : String} {x : Lexis} :
    g.get? id = some x ↔ x ∈ g.nodes ∧ x.id = id := by
  constructor
  · intro found
    exact ⟨mem_of_get? found, id_of_get? found⟩
  · rintro ⟨member, rfl⟩
    exact get?_of_mem member

theorem get?_self {g : Graph} {id : String} {x : Lexis} (found : g.get? id = some x) :
    g.get? x.id = some x :=
  get?_of_mem (mem_of_get? found)

theorem exists_get?_of_mem_ids {g : Graph} {id : String} (member : id ∈ g.ids) :
    ∃ x, g.get? id = some x := by
  obtain ⟨x, inside, same⟩ := List.mem_map.mp member
  exact ⟨x, get?_eq_some.mpr ⟨inside, same⟩⟩

theorem get_eq_ok {g : Graph} {id : String} {referrer : Option String} {x : Lexis} :
    g.get id referrer = .ok x ↔ g.get? id = some x := by
  unfold get
  cases g.get? id <;> simp

theorem mem_ids_of_get? {g : Graph} {id : String} {x : Lexis} (found : g.get? id = some x) : id ∈ g.ids :=
  List.mem_map.mpr ⟨x, mem_of_get? found, id_of_get? found⟩

/-- A look-up does not see the order in which the lexes were inserted. -/
theorem get?_perm {g h : Graph} (perm : h.nodes.Perm g.nodes) (id : String) :
    h.get? id = g.get? id := by
  cases found : g.get? id with
  | none =>
    rw [get?_eq_none] at found ⊢
    exact fun member => found ((perm.map Lexis.id).mem_iff.mp member)
  | some x =>
    obtain ⟨member, same⟩ := get?_eq_some.mp found
    exact get?_eq_some.mpr ⟨perm.mem_iff.mpr member, same⟩

/-- A link of one lexis of the graph to another. -/
def Linked (g : Graph) (a b : String) : Prop :=
  ∃ x y, g.get? a = some x ∧ g.get? b = some y ∧ ∃ e ∈ x.etymons, e.ancestor = b

/-- A link along which a word is derived: neither of the two lexes has a word of its own. -/
def RestsOn (g : Graph) (a b : String) : Prop :=
  ∃ x y, g.get? a = some x ∧ g.get? b = some y ∧ x.literal? = none ∧ y.literal? = none ∧
    ∃ e ∈ x.etymons, e.ancestor = b

theorem RestsOn.linked {g : Graph} {a b : String} (rests : g.RestsOn a b) : g.Linked a b := by
  obtain ⟨x, y, atA, atB, -, -, link⟩ := rests
  exact ⟨x, y, atA, atB, link⟩

/-- No derivation from a lexis runs in a circle, whatever lexes without words it leads to. -/
def CycleFreeFrom (g : Graph) (id : String) : Prop :=
  ∀ v, Relation.ReflTransGen g.RestsOn id v → ¬ Relation.TransGen g.RestsOn v v

/-- Whatever a lexis without a word links to is as free of circles as the lexis itself. -/
theorem CycleFreeFrom.ancestor {g : Graph} {id : String} {x : Lexis} {e : Etymon}
    (free : g.CycleFreeFrom id) (found : g.get? id = some x) (bare : x.literal? = none)
    (link : e ∈ x.etymons) : g.CycleFreeFrom e.ancestor := by
  intro v reach around
  obtain ⟨_, ⟨y, _, atY, _, bareY, _⟩, _⟩ :=
    Relation.TransGen.head'_iff.mp (Relation.TransGen.trans_right reach around)
  have rests : g.RestsOn id e.ancestor := ⟨x, y, found, atY, bare, bareY, e, link, rfl⟩
  exact free v (.head rests reach) around

end Graph

end Etymology
