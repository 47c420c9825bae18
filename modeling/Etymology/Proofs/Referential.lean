import Etymology.Proofs.Finding
import Etymology.Proofs.Graph.Growth
import Etymology.Proofs.Graph.Search

namespace Etymology

theorem Finding.raise_of_clean {findings : List Finding} (clean : ∀ f ∈ findings, f.severity ≠ .error) :
    Finding.raise findings = .ok () := by
  have quiet : findings.findSome? Finding.fault? = none := by
    refine List.findSome?_eq_none_iff.mpr fun f member => ?_
    have warning := clean f member
    cases f <;> first | rfl | exact absurd rfl warning
  rw [Finding.raise, quiet]

namespace Graph

/-- Every reference finds what it names, and no derivation runs in a circle. Keys have texts, also those without
effect. -/
structure Referential (g : Graph) (transforms : Table Transform) : Prop where
  closed : g.Closed
  named : ∀ x ∈ g.nodes, ∀ e ∈ x.etymons, ∀ name ∈ e.transforms, transforms.contains name = true
  acyclic : ∀ id, ¬ Relation.TransGen g.Linked id id
  told : ∀ x ∈ g.nodes, ¬ x.generate.Untold

variable {g : Graph} {transforms : Table Transform}

/-- No ancestor is missing where no link leads out of the graph. -/
theorem missingAncestors_eq_nil_iff : g.missingAncestors = [] ↔ g.Closed := by
  simp only [missingAncestors, List.flatMap_eq_nil_iff, List.map_eq_nil_iff, List.filter_eq_nil_iff,
    Bool.not_eq_true', Bool.not_eq_false, contains_eq_true, Closed]

/-- Nor is a transform where all that are named are known. -/
theorem missingTransforms_of_named {xs : List Lexis}
    (named : ∀ x ∈ xs, ∀ e ∈ x.etymons, ∀ name ∈ e.transforms, transforms.contains name = true) :
    (xs.flatMap fun x => x.etymons.flatMap fun e => (e.transforms.filter fun name => !transforms.contains name).map
      fun name => Finding.missingTransform x.id name) = [] := by
  refine List.flatMap_eq_nil_iff.mpr fun x member => List.flatMap_eq_nil_iff.mpr fun e link => ?_
  refine List.map_eq_nil_iff.mpr (List.filter_eq_nil_iff.mpr fun name used => ?_)
  simp [named x member e link name used]

theorem Referential.cycles_eq_nil (sound : g.Referential transforms) : g.cycles = [] := by
  rw [cycles, findCycle?_eq_none_iff.mpr sound.acyclic]
  rfl

/-- A key that is not left to phonetic rules is ignored, unless it counts as absent, and is told where it is ignored. -/
theorem ignoredKeys_ok_iff : (∃ ignored, g.ignoredKeys = .ok ignored) ↔
    ∀ x ∈ g.nodes, x.isGenerated = false → ¬ x.generate.Untold := by
  simp only [ignoredKeys_eq_ok, exists_and_left, exists_eq, and_true, List.mem_filter, and_imp]
  refine forall₂_congr fun x member => ⟨fun each settled untold => each ?_ untold, fun told ignored => told ?_⟩
  · have truthy := untold.isTruthy
    simp only [Lexis.isGenerated, truthy, Bool.and_true, Bool.and_eq_false_iff] at settled
    rw [ignoresKey, truthy, Bool.true_and, Bool.or_eq_true]
    exact settled.imp (fun word => by simpa using word) fun linked => by simp [linked]
  · obtain ⟨truthy, word | linked⟩ := by simpa [ignoresKey] using ignored
    · simp [Lexis.isGenerated, Option.isSome_iff_ne_none.mp word]
    · simp [Lexis.isGenerated, linked]

theorem undeclaredKeys_of_settled (p : Option Phonology) (settled : ∀ x ∈ g.nodes, x.isGenerated = false) :
    g.undeclaredKeys p = .ok [] := by
  have none : g.nodes.filter Lexis.isGenerated = [] := List.filter_eq_nil_iff.mpr fun x member => by
    simp [settled x member]
  rw [undeclaredKeys, none]
  rfl

/-- Where no word is left to phonetic rules, there is no error exactly if every reference finds what it
names and no derivation runs in a circle; phonetic rules have to be sound by themselves. -/
theorem validate_clean_iff (rules : List GlobalRule) (p : Option Phonology) (scripts : Option ScriptRunner)
    (settled : ∀ x ∈ g.nodes, x.isGenerated = false) :
    (∃ findings, validate g transforms rules p scripts = .ok findings ∧
        ∀ f ∈ findings, f.severity ≠ .error) ↔
      g.Referential transforms ∧ (p.map Phonology.undeclaredGroups).getD [] = [] := by
  constructor
  · rintro ⟨findings, checked, clean⟩
    obtain ⟨ignored, keys, told, -, members⟩ := mem_of_validate checked
    refine ⟨⟨?_, ?_, ?_, fun x member => ignoredKeys_ok_iff.mp ⟨ignored, told⟩ x member (settled x member)⟩, ?_⟩
    · intro x member e link
      have present := contains_of_missingAncestors member link fun found =>
        clean (.missingAncestor x.id e.ancestor) (by simp only [members, found, true_or]) rfl
      by_contra missing
      exact present (get?_eq_none.mpr missing)
    · intro x member e link name used
      have present : transforms.get? name ≠ none := contains_of_missingTransforms member link used fun found =>
        clean (.missingTransform x.id name) (by simp only [members, found, true_or, or_true]) rfl
      obtain ⟨t, found⟩ := Option.ne_none_iff_exists'.mp present
      exact Table.contains_of_get? found
    · refine findCycle?_eq_none_iff.mp (findCycle?_of_cycles fun path found => ?_)
      exact clean (.cycle path) (by simp only [members, found, true_or, or_true]) rfl
    · refine List.eq_nil_iff_forall_not_mem.mpr fun f found => ?_
      exact clean f (by simp only [members, found, true_or, or_true]) (severity_of_mem_undeclaredGroups found)
  · rintro ⟨sound, quiet⟩
    have keys := g.undeclaredKeys_of_settled p settled
    obtain ⟨findings, checked⟩ : ∃ findings, validate g transforms rules p scripts = .ok findings :=
      exists_validate_iff.mpr ⟨ignoredKeys_ok_iff.mpr fun x member _ => sound.told x member, _, keys⟩
    refine ⟨findings, checked, fun f member => ?_⟩
    obtain ⟨ignored, none, told, same, members⟩ := mem_of_validate checked
    obtain rfl : none = [] := (Except.ok.inj (keys.symm.trans same)).symm
    obtain ⟨-, rfl⟩ := ignoredKeys_eq_ok.mp told
    have kinds := (members f).mp member
    simp only [missingAncestors_eq_nil_iff.mpr sound.closed, missingTransforms,
      missingTransforms_of_named sound.named, sound.cycles_eq_nil, quiet,
      List.not_mem_nil, false_or] at kinds
    -- What is left are the rules that only warn.
    rcases kinds with unspecified | shared | ignored | script
    · obtain ⟨x, -, -, -, -, rfl⟩ := mem_underspecified.mp unspecified
      simp [Finding.severity]
    · obtain ⟨x, -, rfl⟩ := List.mem_map.mp shared
      simp [Finding.severity]
    · obtain ⟨x, -, rfl⟩ := List.mem_map.mp ignored
      simp [Finding.severity]
    · have rule := rule_of_mem_missingScripts script
      cases f <;> simp_all [Finding.rule, Finding.severity]

end Graph

end Etymology
