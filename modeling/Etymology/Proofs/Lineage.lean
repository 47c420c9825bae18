import Etymology.Proofs.Graph.Daughter
import Etymology.Proofs.Graph.GrownSearch
import Etymology.Proofs.Referential

namespace Etymology

variable {transforms : Table Transform}

/-- A lexis that the rules pass over, as long as its link does not lead out of the graph. -/
structure Lexis.Unremarkable (transforms : Table Transform) (x : Lexis) : Prop where
  linked : ∃ e, x.etymons = [e]
  named : ∀ e ∈ x.etymons, ∀ name ∈ e.transforms, transforms.contains name = true
  keyless : x.generate.isFalsy = true

theorem DaughterPlan.unremarkable_of_mem_daughters {plan : DaughterPlan} {xs : List Lexis} {ids : List String}
    (named : ∀ name ∈ plan.transforms, transforms.contains name = true) :
    ∀ x ∈ plan.daughters xs ids, x.Unremarkable transforms := by
  intro x member
  obtain ⟨⟨s, id⟩, -, rfl⟩ := List.mem_map.mp member
  refine ⟨⟨_, rfl⟩, fun e link => ?_, rfl⟩
  obtain rfl := List.mem_singleton.mp link
  exact named

namespace Graph

section Grown

variable {g h : Graph} {news : List Lexis}

/-- What holds of no new lexis selects the lexes that it did. -/
theorem GrownBy.filter_nodes (grown : g.GrownBy h news) {holds : Lexis → Bool} (none : ∀ x ∈ news, holds x = false) :
    h.nodes.filter holds = g.nodes.filter holds := by
  have nothing : news.filter holds = [] := List.filter_eq_nil_iff.mpr fun x member => by simp [none x member]
  rw [grown.nodes, List.filter_append, nothing, List.append_nil]

variable (grown : g.GrownBy h news) (plain : ∀ x ∈ news, x.Unremarkable transforms)

include grown plain

theorem GrownBy.missingTransforms_eq : h.missingTransforms transforms = g.missingTransforms transforms := by
  rw [missingTransforms, grown.nodes, List.flatMap_append,
    missingTransforms_of_named fun x member => (plain x member).named, List.append_nil, missingTransforms]

theorem GrownBy.underspecified_eq : h.underspecified = g.underspecified := by
  rw [underspecified, grown.filter_nodes, underspecified]
  intro x member
  obtain ⟨e, link⟩ := (plain x member).linked
  simp [link]

theorem GrownBy.sharedOrders_eq : h.sharedOrders = g.sharedOrders := by
  rw [sharedOrders, grown.filter_nodes, sharedOrders]
  intro x member
  obtain ⟨e, link⟩ := (plain x member).linked
  simp [Lexis.sharesOrder, link]

theorem GrownBy.ignoredKeys_eq : h.ignoredKeys = g.ignoredKeys := by
  rw [ignoredKeys, grown.filter_nodes, ignoredKeys]
  intro x member
  simp [ignoresKey, Value.isTruthy, (plain x member).keyless]

theorem GrownBy.undeclaredKeys_eq (p : Option Phonology) : h.undeclaredKeys p = g.undeclaredKeys p := by
  have settled : ∀ x ∈ news, x.isGenerated = false := by
    intro x member
    simp [Lexis.isGenerated, Value.isTruthy, (plain x member).keyless]
  rw [undeclaredKeys, grown.filter_nodes settled, undeclaredKeys]

/-- All findings on a graph that has grown by such lexes are those that there were, or there are none for the same
reason. -/
theorem GrownBy.validate_eq (closed : g.Closed) (rules : List GlobalRule) (p : Option Phonology)
    (scripts : Option ScriptRunner) :
    validate h transforms rules p scripts = validate g transforms rules p scripts := by
  rw [validate, validate, grown.undeclaredKeys_eq plain, grown.missingTransforms_eq plain, cycles,
    grown.findCycle?_eq closed, ← cycles, grown.underspecified_eq plain, grown.sharedOrders_eq plain,
    grown.ignoredKeys_eq plain, missingAncestors_eq_nil_iff.mpr closed,
    missingAncestors_eq_nil_iff.mpr (grown.closed closed)]

end Grown

/-- The graphs that come of a graph by making one daughter language after another, of whatever languages are there
then, with transforms of a table. -/
inductive Lineage (transforms : Table Transform) (g : Graph) : Graph → Prop
  | self : Lineage transforms g g
  | daughter {h k plan ids} : Lineage transforms g h → (∀ name ∈ plan.transforms, transforms.contains name = true) →
      h.withDaughter plan = .ok (k, ids) → Lineage transforms g k

variable {g h : Graph}

theorem Lineage.closed (lineage : g.Lineage transforms h) (closed : g.Closed) : h.Closed := by
  induction lineage with
  | self => exact closed
  | daughter _ _ run ih => exact (grown_of_withDaughter run).closed ih

theorem Lineage.validate_eq (lineage : g.Lineage transforms h) (closed : g.Closed) (rules : List GlobalRule)
    (p : Option Phonology) (scripts : Option ScriptRunner) :
    validate h transforms rules p scripts = validate g transforms rules p scripts := by
  induction lineage with
  | self => rfl
  | daughter earlier named run ih =>
    have grown := grown_of_withDaughter run
    exact (grown.validate_eq (DaughterPlan.unremarkable_of_mem_daughters named) (earlier.closed closed) rules p
      scripts).trans ih

/-- Daughter languages add no finding. If no ancestor is missing in a graph, a plan whose template names each daughter
and whose transforms are known can be carried out on it and on whatever has come of it in this way, and all findings are
then those on the graph, in the same order. -/
theorem validate_withDaughter (quiet : g.missingAncestors = []) (lineage : g.Lineage transforms h)
    (rules : List GlobalRule) (p : Option Phonology) (scripts : Option ScriptRunner) (plan : DaughterPlan)
    (named : ∀ name ∈ plan.transforms, transforms.contains name = true)
    (fills : ∀ x ∈ h.nodes, plan.selects x = true → plan.candidate? x ≠ none) :
    ∃ k ids, h.withDaughter plan = .ok (k, ids) ∧ g.Lineage transforms k ∧
      validate k transforms rules p scripts = validate g transforms rules p scripts := by
  have each : ∀ x ∈ h.nodes.filter plan.selects, plan.candidate? x ≠ none := by
    intro x member
    obtain ⟨inside, selected⟩ := List.mem_filter.mp member
    exact fills x inside selected
  obtain ⟨k, ids, run, -, -⟩ := withDaughter_grown each
  have further : g.Lineage transforms k := .daughter lineage named run
  exact ⟨k, ids, run, further, further.validate_eq (missingAncestors_eq_nil_iff.mp quiet) rules p scripts⟩

/-- A stem, a word derived from it under an id that a daughter would have, and two words that derive each other. -/
def handmade : Graph where
  nodes := [
    { id := "stem", word := some ⟨["b", "u", "r", "r", "a"]⟩, language := "Latin" },
    { id := "stem-old", language := "Latin", generate := .text "root", etymons := [⟨"stem", [], 0⟩] },
    { id := "hen", language := "Folk", etymons := [⟨"egg", [], 0⟩] },
    { id := "egg", language := "Folk", etymons := [⟨"hen", [], 0⟩] }]
  ids_nodup := by decide

def fronting : Table Transform :=
  ⟨[("front", ⟨"front", [.letterReplace ⟨["u"]⟩ ⟨["y"]⟩ .all], none⟩)], by decide⟩

def oldPlan : DaughterPlan where
  source := "Latin"
  language := "Old"
  transforms := ["front"]

/-- All daughters would have the same id. -/
def newPlan : DaughterPlan where
  source := "Old"
  language := "New"
  transforms := ["front"]
  idTemplate := "\x7blanguage\x7d"

/-- After two generations no more is found than the circle and the key without effect that were there. -/
theorem handmade_generations :
    handmade.missingAncestors = [] ∧ ∃ h ids k ids', handmade.withDaughter oldPlan = .ok (h, ids) ∧
      ids = ["stem-old-2", "stem-old-old"] ∧ h.withDaughter newPlan = .ok (k, ids') ∧
      validate k fronting [] none none =
        .ok [.cycle ["hen", "egg", "hen"], .ignoredKey "stem-old" (.text "root")] := by
  have quiet : handmade.missingAncestors = [] := by decide
  have known : ∀ name ∈ ["front"], fronting.contains name = true := by decide
  have before : validate handmade fronting [] none none =
      .ok [.cycle ["hen", "egg", "hen"], .ignoredKey "stem-old" (.text "root")] := by
    decide +kernel
  obtain ⟨h, ids, run, lineage, -⟩ := validate_withDaughter quiet .self [] none none oldPlan known
    fun x _ _ => DaughterPlan.candidate?_ne_none rfl x
  have evaluated : ((handmade.withDaughter oldPlan).toOption.any fun made =>
      decide (made.2 = ["stem-old-2", "stem-old-old"] ∧
        ∀ x ∈ made.1.nodes, newPlan.selects x = true → newPlan.candidate? x ≠ none)) = true := by
    decide +kernel
  rw [run] at evaluated
  obtain ⟨named, fills⟩ := of_decide_eq_true evaluated
  obtain ⟨k, ids', again, -, same⟩ := validate_withDaughter quiet lineage [] none none newPlan known fills
  exact ⟨quiet, h, ids, k, ids', run, named, again, same.trans before⟩

end Graph

end Etymology
