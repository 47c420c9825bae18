import Etymology.Daughter
import Etymology.Proofs.Control
import Etymology.Proofs.Graph.Growth
import Etymology.Proofs.Document.Numeral
import Mathlib.Data.List.Perm.Subperm
import Mathlib.Order.Bounds.Defs

namespace Etymology

namespace Graph

theorem numbered_injective (candidate : String) : Function.Injective (numbered candidate) := by
  intro m n same
  refine Text.numeral_injective ?_
  have lists := congrArg String.toList same
  simpa [numbered] using lists

theorem numbered_ne (candidate : String) (n : Nat) : numbered candidate n ≠ candidate := by
  intro same
  have lengths := congrArg (fun s => s.toList.length) same
  simp only [numbered, String.toList_append, List.length_append] at lengths
  have hyphen : "-".toList.length = 1 := rfl
  omega

/-- There are not enough lexes to have all of the numbers tried. -/
theorem exists_numbered_not_mem {g : Graph} {candidate : String} (taken : candidate ∈ g.ids) :
    ∃ k ∈ List.range g.size, numbered candidate (k + 2) ∉ g.ids := by
  by_contra all
  simp only [not_exists, not_and, not_not] at all
  have distinct : (candidate :: (List.range g.size).map fun k => numbered candidate (k + 2)).Nodup := by
    refine List.nodup_cons.mpr ⟨?_, ?_⟩
    · intro again
      obtain ⟨k, -, same⟩ := List.mem_map.mp again
      exact numbered_ne candidate (k + 2) same
    · refine List.nodup_range.map fun m n same => ?_
      exact Nat.add_right_cancel (numbered_injective candidate same)
  have inside : (candidate :: (List.range g.size).map fun k => numbered candidate (k + 2)) ⊆ g.ids := by
    refine List.cons_subset.mpr ⟨taken, fun id member => ?_⟩
    obtain ⟨k, range, rfl⟩ := List.mem_map.mp member
    exact all k range
  have bound := (List.subperm_of_subset distinct inside).length_le
  simp only [ids, size, List.length_cons, List.length_map, List.length_range] at bound
  omega

/-- A turn of the search for a number behind a candidate. -/
def numberTurn (taken : List String) (candidate : String) (n : Nat) : Nat ⊕ String :=
  if numbered candidate n ∈ taken then .inl (n + 1) else .inr (numbered candidate n)

/-- The id that a candidate leads to where some ids are taken. A number is found by trying them all from 2 on. -/
inductive NamedFrom (taken : List String) (candidate : String) : String → Prop
  | plain : candidate ∉ taken → NamedFrom taken candidate candidate
  | numbered {n turns} : candidate ∈ taken → IsLeast {m | 2 ≤ m ∧ numbered candidate m ∉ taken} n →
      turns ≤ taken.length → EndsIn (numberTurn taken candidate) turns 2 (numbered candidate n) →
      NamedFrom taken candidate (numbered candidate n)

section NamedFrom

variable {taken : List String} {candidate id : String}

theorem NamedFrom.not_mem (named : NamedFrom taken candidate id) : id ∉ taken := by
  cases named with
  | plain free => exact free
  | numbered _ least _ _ => exact least.1.2

/-- The search stops at the first number that is free. -/
theorem endsIn_numberTurn {start more : Nat} (free : numbered candidate (start + more) ∉ taken)
    (passed : ∀ m, start ≤ m → m < start + more → numbered candidate m ∈ taken) :
    EndsIn (numberTurn taken candidate) (more + 1) start (numbered candidate (start + more)) := by
  induction more generalizing start with
  | zero =>
    rw [Nat.add_zero start] at free ⊢
    exact .result (by rw [numberTurn, if_neg free])
  | succ more ih =>
    have here : numbered candidate start ∈ taken := passed start (Nat.le_refl start) (by omega)
    have shift : start + 1 + more = start + (more + 1) := by omega
    have later := @ih (start + 1) (by rwa [shift]) fun m low high => passed m (by omega) (by omega)
    rw [shift] at later
    exact .next (by rw [numberTurn, if_pos here]) later

/-- That number is the least. -/
theorem isLeast_of_passed {start more : Nat} (free : numbered candidate (start + more) ∉ taken)
    (passed : ∀ m, start ≤ m → m < start + more → numbered candidate m ∈ taken) :
    IsLeast {m | start ≤ m ∧ numbered candidate m ∉ taken} (start + more) := by
  refine ⟨⟨Nat.le_add_right start more, free⟩, ?_⟩
  rintro m ⟨low, unused⟩
  by_contra less
  exact unused (passed m low (by omega))

/-- With the lexes of a graph in the way, a number is found among as many as there are lexes. -/
theorem freshId_named (g : Graph) (candidate : String) : NamedFrom g.ids candidate (g.freshId candidate) := by
  unfold freshId
  split
  · next present =>
    have taken : candidate ∈ g.ids := contains_eq_true.mp present
    obtain ⟨some, range, free⟩ := exists_numbered_not_mem taken
    cases found : (List.range g.size).find? fun k => !g.contains (numbered candidate (k + 2)) with
    | none =>
      have all := List.find?_eq_none.mp found some range
      simp [contains_eq_false, free] at all
    | some k =>
      obtain ⟨first, inside, before⟩ := List.find?_range_eq_some.mp found
      have free : numbered candidate (2 + k) ∉ g.ids := by
        rw [Nat.add_comm]
        simpa [contains_eq_false] using first
      have passed : ∀ m, 2 ≤ m → m < 2 + k → numbered candidate m ∈ g.ids := by
        intro m low high
        have tried := before (m - 2) (by omega)
        rw [Nat.sub_add_cancel low] at tried
        simpa [contains_eq_true] using tried
      have few : k + 1 ≤ g.ids.length := by
        have range := List.mem_range.mp inside
        simp only [size] at range
        simp only [ids, List.length_map]
        omega
      dsimp only
      rw [Nat.add_comm k 2]
      exact .numbered taken (isLeast_of_passed free passed) few (endsIn_numberTurn free passed)
  · next absent => exact .plain (contains_eq_false.mp (by simpa using absent))

end NamedFrom

/-- The id found for a new lexis is new. -/
theorem freshId_not_mem (g : Graph) (candidate : String) : g.freshId candidate ∉ g.ids :=
  (g.freshId_named candidate).not_mem

end Graph

namespace DaughterPlan

/-- Without a template of its own, a plan names a daughter by the id of its lexis and the slug of its
language. -/
theorem candidate?_eq {plan : DaughterPlan} (plain : plan.idTemplate = "\x7bid\x7d-\x7blanguage\x7d")
    (x : Lexis) : plan.candidate? x = some (x.id ++ "-" ++ Text.slug plan.language) := by
  have read : Text.Template.pieces? "\x7bid\x7d-\x7blanguage\x7d".toList =
      some [.field ['i', 'd'] none [], .literal '-',
        .field ['l', 'a', 'n', 'g', 'u', 'a', 'g', 'e'] none []] := by
    decide +kernel
  have id : Text.Template.valueOf? [("id", x.id), ("language", Text.slug plan.language)] ['i', 'd'] =
      some x.id.toList := by
    simp [Text.Template.valueOf?]
  have language : Text.Template.valueOf? [("id", x.id), ("language", Text.slug plan.language)]
      ['l', 'a', 'n', 'g', 'u', 'a', 'g', 'e'] = some (Text.slug plan.language).toList := by
    simp [Text.Template.valueOf?, List.lookup_cons]
  have layout : Text.Padding.parse? [] = some {} := rfl
  have apply : ∀ cs, Text.Padding.apply {} cs = cs := by
    intro cs
    simp [Text.Padding.apply]
  rw [candidate?, plain, Text.fillTemplate?, Text.Template.fillChars?, read]
  simp [id, language, layout, apply, Text.Template.quoteAs?, String.append_assoc]

theorem candidate?_ne_none {plan : DaughterPlan} (plain : plan.idTemplate = "\x7bid\x7d-\x7blanguage\x7d")
    (x : Lexis) : plan.candidate? x ≠ none := by
  rw [candidate?_eq plain]
  exact Option.some_ne_none _

/-- The daughters of some lexes, each under its id. -/
def daughters (plan : DaughterPlan) (xs : List Lexis) (ids : List String) : List Lexis :=
  (xs.zip ids).map fun e => plan.daughterOf e.1 e.2

/-- Every lexis that can be named gets its daughter. -/
theorem addDaughters_eq {plan : DaughterPlan} {xs : List Lexis}
    (named : ∀ x ∈ xs, plan.candidate? x ≠ none) (g : Graph) :
    ∃ h ids, plan.addDaughters xs g = .ok (h, ids) ∧ ids.length = xs.length ∧
      h.nodes = g.nodes ++ plan.daughters xs ids := by
  induction xs generalizing g with
  | nil => exact ⟨g, [], rfl, rfl, (List.append_nil _).symm⟩
  | cons x xs ih =>
    obtain ⟨here, later⟩ := List.forall_mem_cons.mp named
    obtain ⟨candidate, name⟩ := Option.ne_none_iff_exists'.mp here
    obtain ⟨grown, added, nodes⟩ :=
      Graph.add_eq (x := plan.daughterOf x (g.freshId candidate)) (g.freshId_not_mem candidate)
    obtain ⟨h, ids, run, length, further⟩ := ih later grown
    refine ⟨h, g.freshId candidate :: ids, ?_, by rw [List.length_cons, length, List.length_cons], ?_⟩
    · simp only [addDaughters, name, added, run]
    · rw [further, nodes, List.append_assoc]
      rfl

/-- If all daughters have been added, each could be named. -/
theorem named_of_addDaughters {plan : DaughterPlan} {xs : List Lexis} {g h : Graph} {ids : List String}
    (run : plan.addDaughters xs g = .ok (h, ids)) : ∀ x ∈ xs, plan.candidate? x ≠ none := by
  induction xs generalizing g h ids with
  | nil => nofun
  | cons x xs ih =>
    rw [addDaughters] at run
    split at run
    · cases run
    · next candidate name =>
      refine List.forall_mem_cons.mpr ⟨name ▸ Option.some_ne_none _, ?_⟩
      dsimp only at run
      split at run
      · cases run
      · split at run
        · next later => exact ih later
        · cases run

end DaughterPlan

/-- A daughter language comes about wherever the template names each daughter, and only there. -/
theorem Graph.withDaughter_grown {g : Graph} {plan : DaughterPlan}
    (named : ∀ x ∈ g.nodes.filter plan.selects, plan.candidate? x ≠ none) :
    ∃ h ids, g.withDaughter plan = .ok (h, ids) ∧ ids.length = (g.nodes.filter plan.selects).length ∧
      g.GrownBy h (plan.daughters (g.nodes.filter plan.selects) ids) := by
  obtain ⟨h, ids, run, length, nodes⟩ := plan.addDaughters_eq named g
  refine ⟨h, ids, run, length, nodes, ?_⟩
  intro x new e link
  obtain ⟨⟨s, id⟩, pair, rfl⟩ := List.mem_map.mp new
  obtain rfl := List.mem_singleton.mp link
  exact List.mem_map.mpr ⟨s, (List.mem_filter.mp (List.of_mem_zip pair).1).1, rfl⟩

theorem Graph.grown_of_withDaughter {g h : Graph} {plan : DaughterPlan} {ids : List String}
    (run : g.withDaughter plan = .ok (h, ids)) :
    g.GrownBy h (plan.daughters (g.nodes.filter plan.selects) ids) := by
  obtain ⟨k, ids', again, -, grown⟩ := withDaughter_grown (plan.named_of_addDaughters run)
  rw [Graph.withDaughter, ← Graph.withDaughter, again] at run
  cases run
  exact grown

end Etymology
