import Mathlib.Data.List.Chain
import Mathlib.Data.List.Nodup
import Mathlib.Logic.Relation

namespace Etymology

/-- From a member along a relation back to it, with no other member met twice. -/
def Circle {α : Type} (R : α → α → Prop) (v : α) (path : List α) : Prop :=
  ∃ between, path = v :: (between ++ [v]) ∧ (v :: between).Nodup ∧ path.IsChain R

namespace Circle

variable {α : Type} {R : α → α → Prop} {v : α} {path : List α}

/-- Whoever stands on a circle is related to itself in one step or more. -/
theorem transGen (circle : Circle R v path) : Relation.TransGen R v v := by
  obtain ⟨between, rfl, -, chain⟩ := circle
  have related := (chain.imp fun _ _ => Relation.TransGen.single).pairwise
  exact List.rel_of_pairwise_cons related (by simp)

/-- Where only single members lead back to themselves, nothing stands between. -/
theorem eq_pair (circle : Circle R v path) (loops : ∀ a b, R a b → Relation.TransGen R b a → a = b) :
    path = [v, v] := by
  obtain ⟨between, rfl, distinct, chain⟩ := circle
  cases between with
  | nil => rfl
  | cons a between =>
    obtain ⟨first, rest⟩ := List.isChain_cons_cons.mp chain
    have related := (rest.imp fun _ _ => Relation.TransGen.single).pairwise
    obtain rfl := loops v a first (List.rel_of_pairwise_cons related (by simp))
    simp at distinct

/-- A chain without repetition whose last member leads back to one of its members closes a circle:
from that member on. -/
theorem of_chain {before between : List α} (chain : (before ++ v :: between).IsChain R)
    (distinct : (before ++ v :: between).Nodup) {last : α} (top : (v :: between).getLast? = some last)
    (back : R last v) : Circle R v (v :: between ++ [v]) := by
  refine ⟨between, rfl, (List.nodup_append.mp distinct).2.1, ?_⟩
  refine chain.right_of_append.append (.singleton v) ?_
  intro a atEnd b atStart
  obtain rfl := Option.some.inj (atEnd.symm.trans top)
  obtain rfl := Option.some.inj atStart
  exact back

/-- Whatever leads somewhere does so along a chain without repetition: a chain that comes back to where it
starts is taken from there. -/
theorem exists_chain_of_reflTransGen {a b : α} (leads : Relation.ReflTransGen R a b) :
    ∃ rest, (a :: rest).Nodup ∧ (a :: rest).IsChain R ∧ (a :: rest).getLast? = some b := by
  induction leads using Relation.ReflTransGen.head_induction_on with
  | refl => exact ⟨[], List.nodup_singleton b, .singleton b, rfl⟩
  | @head a c first _ ih =>
    obtain ⟨rest, distinct, chain, last⟩ := ih
    by_cases again : a ∈ c :: rest
    · obtain ⟨before, after, split⟩ := List.append_of_mem again
      rw [split] at distinct chain last
      refine ⟨after, (List.nodup_append.mp distinct).2.1, chain.right_of_append, ?_⟩
      rwa [List.getLast?_append_of_ne_nil before (List.cons_ne_nil a after)] at last
    · refine ⟨c :: rest, List.nodup_cons.mpr ⟨again, distinct⟩, .cons_cons first chain, ?_⟩
      rwa [List.getLast?_cons_cons]

/-- There is a circle from wherever a way leads back. -/
theorem exists_iff : (∃ path, Circle R v path) ↔ Relation.TransGen R v v := by
  constructor
  · rintro ⟨path, circle⟩
    exact circle.transGen
  · intro around
    obtain ⟨c, first, back⟩ := Relation.TransGen.head'_iff.mp around
    obtain ⟨rest, distinct, chain, last⟩ := exists_chain_of_reflTransGen back
    obtain ⟨between, split⟩ := List.getLast?_eq_some_iff.mp last
    rw [split] at distinct chain
    have opened : (v :: between).Nodup := (List.perm_append_singleton v between).nodup distinct
    refine ⟨v :: (between ++ [v]), between, rfl, opened, ?_⟩
    rw [← split] at chain ⊢
    exact .cons_cons first chain

end Circle

end Etymology
