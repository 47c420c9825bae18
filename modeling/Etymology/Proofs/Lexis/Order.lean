import Etymology.Lexis.Basic
import Mathlib.Data.List.Nodup

namespace Etymology

namespace Etymon

/-- Declared etymons by their orders, those of one order as they were declared. -/
structure StablySorted (declared sorted : List Etymon) : Prop where
  perm : sorted.Perm declared
  ascending : sorted.Pairwise fun a b => a.order ≤ b.order
  stable : ∀ k, sorted.filter (·.order = k) = declared.filter (·.order = k)

variable {declared sorted other es fs : List Etymon}

/-- No etymon of an ascending list is before its head. -/
theorem order_le_of_ascending {a b : Etymon} (ascending : (a :: es).Pairwise fun a b => a.order ≤ b.order)
    (member : b ∈ a :: es) : a.order ≤ b.order := by
  rcases List.mem_cons.mp member with rfl | later
  · exact Int.le_refl b.order
  · exact List.rel_of_pairwise_cons ascending later

theorem mem_of_filter_order_eq {a : Etymon} (same : ∀ k, es.filter (·.order = k) = fs.filter (·.order = k))
    (member : a ∈ es) : a ∈ fs := by
  have here : a ∈ es.filter (·.order = a.order) := List.mem_filter.mpr ⟨member, by simp⟩
  rw [same] at here
  exact (List.mem_filter.mp here).1

/-- Ascending lists are told apart by what they have of each order. -/
theorem eq_of_ascending (first : es.Pairwise fun a b => a.order ≤ b.order)
    (second : fs.Pairwise fun a b => a.order ≤ b.order)
    (same : ∀ k, es.filter (·.order = k) = fs.filter (·.order = k)) : es = fs := by
  induction es generalizing fs with
  | nil =>
    cases fs with
    | nil => rfl
    | cons b fs =>
      have impossible := mem_of_filter_order_eq (fun k => (same k).symm) List.mem_cons_self
      cases impossible
  | cons a es ih =>
    cases fs with
    | nil =>
      have impossible := mem_of_filter_order_eq same List.mem_cons_self
      cases impossible
    | cons b fs =>
      -- The heads are of the least order of all, and the first of it.
      have below := order_le_of_ascending first
        (mem_of_filter_order_eq (fun k => (same k).symm) List.mem_cons_self)
      have above := order_le_of_ascending second (mem_of_filter_order_eq same List.mem_cons_self)
      have level : b.order = a.order := by omega
      have heads := same a.order
      rw [List.filter_cons_of_pos (by simp), List.filter_cons_of_pos (by simp [level])] at heads
      obtain ⟨rfl, -⟩ := List.cons.inj heads
      have tails : ∀ k, es.filter (·.order = k) = fs.filter (·.order = k) := by
        intro k
        have both := same k
        by_cases here : a.order = k
        · simpa [here] using both
        · simpa [here] using both
      rw [ih first.of_cons second.of_cons tails]

/-- There is no more than one way to sort etymons stably. -/
theorem StablySorted.unique (first : StablySorted declared sorted) (second : StablySorted declared other) :
    sorted = other :=
  eq_of_ascending first.ascending second.ascending fun k => (first.stable k).trans (second.stable k).symm

theorem decide_order_trans (a b c : Etymon) (first : decide (a.order ≤ b.order) = true)
    (second : decide (b.order ≤ c.order) = true) : decide (a.order ≤ c.order) = true := by
  simp only [decide_eq_true_eq] at *
  omega

theorem decide_order_total (a b : Etymon) : (decide (a.order ≤ b.order) || decide (b.order ≤ a.order)) = true := by
  simp only [Bool.or_eq_true, decide_eq_true_eq]
  omega

end Etymon

namespace Lexis

theorem orderedEtymons_perm (x : Lexis) : x.orderedEtymons.Perm x.etymons :=
  List.mergeSort_perm x.etymons _

/-- The etymons of one order are in order as they are declared, so that the sort leaves them so. -/
theorem filter_orderedEtymons (x : Lexis) (k : Int) :
    x.orderedEtymons.filter (·.order = k) = x.etymons.filter (·.order = k) := by
  have level : (x.etymons.filter (·.order = k)).Pairwise fun a b => decide (a.order ≤ b.order) = true := by
    refine List.pairwise_of_forall_mem_list fun a here b there => ?_
    have left := (List.mem_filter.mp here).2
    have right := (List.mem_filter.mp there).2
    simp only [decide_eq_true_eq] at *
    omega
  have kept : (x.etymons.filter (·.order = k)).Sublist x.orderedEtymons :=
    List.sublist_mergeSort Etymon.decide_order_trans Etymon.decide_order_total level List.filter_sublist
  have all := kept.filter fun e => decide (e.order = k)
  simp only [List.filter_filter, Bool.and_self] at all
  exact (all.eq_of_length (x.orderedEtymons_perm.filter _).length_eq.symm).symm

theorem stablySorted_orderedEtymons (x : Lexis) : Etymon.StablySorted x.etymons x.orderedEtymons where
  perm := x.orderedEtymons_perm
  ascending := by
    have sorted := List.pairwise_mergeSort Etymon.decide_order_trans Etymon.decide_order_total x.etymons
    exact sorted.imp fun low => of_decide_eq_true low
  stable := x.filter_orderedEtymons

/-- Sorting sees no more of a declaration than what it has of each order. -/
theorem orderedEtymons_congr {x y : Lexis}
    (same : ∀ k, x.etymons.filter (·.order = k) = y.etymons.filter (·.order = k)) :
    x.orderedEtymons = y.orderedEtymons := by
  refine Etymon.eq_of_ascending x.stablySorted_orderedEtymons.ascending y.stablySorted_orderedEtymons.ascending ?_
  intro k
  rw [filter_orderedEtymons, filter_orderedEtymons, same]

/-- Where no two orders tie, what is declared in another order is sorted alike. -/
theorem orderedEtymons_of_perm {x y : Lexis} (perm : x.etymons.Perm y.etymons)
    (distinct : (y.etymons.map Etymon.order).Nodup) : x.orderedEtymons = y.orderedEtymons := by
  have whole : x.orderedEtymons.Perm y.orderedEtymons :=
    x.orderedEtymons_perm.trans (perm.trans y.orderedEtymons_perm.symm)
  refine whole.eq_of_pairwise ?_ x.stablySorted_orderedEtymons.ascending y.stablySorted_orderedEtymons.ascending
  intro a b left right low high
  have here : a ∈ y.etymons := perm.mem_iff.mp (x.orderedEtymons_perm.mem_iff.mp left)
  have there : b ∈ y.etymons := y.orderedEtymons_perm.mem_iff.mp right
  exact List.inj_on_of_nodup_map distinct here there (Int.le_antisymm low high)

/-- The lexis with its etymons declared in the order in which they are joined. -/
def ordered (x : Lexis) : Lexis :=
  { x with etymons := x.orderedEtymons }

@[simp] theorem orderedEtymons_ordered (x : Lexis) : x.ordered.orderedEtymons = x.orderedEtymons :=
  orderedEtymons_congr x.filter_orderedEtymons

end Lexis

end Etymology
