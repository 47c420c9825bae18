import Etymology.Finding
import Etymology.Proofs.Document.Numeral
import Etymology.Proofs.Graph.Acyclic
import Etymology.Proofs.Phonology.Declared

namespace Etymology

namespace Graph

theorem contains_of_missingAncestors {g : Graph} {x : Lexis} {e : Etymon} (member : x ∈ g.nodes)
    (link : e ∈ x.etymons) (quiet : .missingAncestor x.id e.ancestor ∉ g.missingAncestors) :
    g.get? e.ancestor ≠ none := by
  intro absent
  refine quiet (List.mem_flatMap.mpr ⟨x, member, List.mem_map.mpr ⟨e, ?_, rfl⟩⟩)
  rw [get?_eq_none, ← contains_eq_false] at absent
  exact List.mem_filter.mpr ⟨link, by rw [absent]; rfl⟩

theorem contains_of_missingTransforms {g : Graph} {transforms : Table Transform} {x : Lexis} {e : Etymon}
    {name : String} (member : x ∈ g.nodes) (link : e ∈ x.etymons) (named : name ∈ e.transforms)
    (quiet : .missingTransform x.id name ∉ g.missingTransforms transforms) :
    transforms.get? name ≠ none := by
  intro absent
  refine quiet (List.mem_flatMap.mpr ⟨x, member, List.mem_flatMap.mpr ⟨e, link, ?_⟩⟩)
  refine List.mem_map.mpr ⟨name, List.mem_filter.mpr ⟨named, ?_⟩, rfl⟩
  rw [(Table.get?_eq_none transforms name).mp absent]
  rfl

theorem findCycle?_of_cycles {g : Graph} (quiet : ∀ path, .cycle path ∉ g.cycles) :
    g.findCycle? = none := by
  cases found : g.findCycle? with
  | none => rfl
  | some path => exact absurd (by simp [cycles, found]) (quiet path)

theorem mem_underspecified {g : Graph} {f : Finding} :
    f ∈ g.underspecified ↔ ∃ x ∈ g.nodes, x.literal? = none ∧ x.generate.isFalsy = true ∧
      x.etymons = [] ∧ f = .underspecified x.id := by
  simp only [underspecified, List.mem_map, List.mem_filter, Bool.and_eq_true, Option.isNone_iff_eq_none,
    List.isEmpty_iff]
  constructor
  · rintro ⟨x, ⟨member, ⟨bare, falsy⟩, unlinked⟩, rfl⟩
    exact ⟨x, member, bare, falsy, unlinked, rfl⟩
  · rintro ⟨x, member, bare, falsy, unlinked, rfl⟩
    exact ⟨x, ⟨member, ⟨bare, falsy⟩, unlinked⟩, rfl⟩

theorem tellKey_eq_ok {x : Lexis} {finding f : Finding} :
    tellKey x finding = .ok f ↔ ¬ x.generate.Untold ∧ f = finding := by
  rw [tellKey, map_eq_ok, exists_and_right, ← Value.written?_eq_none_iff]
  refine and_congr_left fun _ => ?_
  simp only [Fault.orUnsuitable_eq_ok, ← Option.ne_none_iff_exists', ne_eq]

/-- Each key that is ignored is told. -/
theorem ignoredKeys_eq_ok {g : Graph} {ignored : List Finding} : g.ignoredKeys = .ok ignored ↔
    (∀ x ∈ g.nodes.filter ignoresKey, ¬ x.generate.Untold) ∧
      ignored = (g.nodes.filter ignoresKey).map fun x => .ignoredKey x.id x.generate :=
  mapM_eq_ok_map_iff fun _ _ => tellKey_eq_ok

/-- A key that a lexis generates its word from is declared, or it is told and is a finding. -/
theorem keyFindings_eq_ok {p : Option Phonology} {x : Lexis} {fs : List Finding} : keyFindings p x = .ok fs ↔
    keyDeclared p x.generate = .ok true ∧ fs = [] ∨
      keyDeclared p x.generate = .ok false ∧ ¬ x.generate.Untold ∧ fs = [.undeclaredKey x.id x.generate] := by
  rw [keyFindings]
  cases keyDeclared p x.generate with
  | error fault => exact ⟨nofun, by rintro (⟨⟨⟩, -⟩ | ⟨⟨⟩, -⟩)⟩
  | ok declared =>
    cases declared with
    | true => exact ⟨fun done => .inl ⟨rfl, (Except.ok.inj done).symm⟩, by rintro (⟨-, rfl⟩ | ⟨⟨⟩, -⟩); rfl⟩
    | false =>
      refine (bind_eq_ok (x := tellKey x _) (f := fun f => .ok [f])).trans ?_
      simp only [tellKey_eq_ok]
      constructor
      · rintro ⟨_, ⟨told, rfl⟩, same⟩
        exact .inr ⟨trivial, told, (Except.ok.inj same).symm⟩
      · rintro (⟨⟨⟩, -⟩ | ⟨-, told, rfl⟩)
        exact ⟨_, ⟨told, rfl⟩, rfl⟩

theorem mem_keyFindings {p : Option Phonology} {x : Lexis} {fs : List Finding} (run : keyFindings p x = .ok fs)
    {f : Finding} : f ∈ fs ↔ keyDeclared p x.generate = .ok false ∧ f = .undeclaredKey x.id x.generate := by
  rcases keyFindings_eq_ok.mp run with ⟨declared, rfl⟩ | ⟨undeclared, -, rfl⟩
  · simp [declared]
  · simp [undeclared]

/-- The findings are the words left to phonetic rules whose keys are not declared. -/
theorem mem_undeclaredKeys {g : Graph} {p : Option Phonology} {keys : List Finding} (run : g.undeclaredKeys p = .ok keys)
    {f : Finding} : f ∈ keys ↔ ∃ x ∈ g.nodes, x.isGenerated = true ∧ keyDeclared p x.generate = .ok false ∧
      f = .undeclaredKey x.id x.generate := by
  obtain ⟨each, checked, rfl⟩ := map_eq_ok.mp run
  have members : f ∈ each.flatten ↔ ∃ x ∈ g.nodes.filter Lexis.isGenerated, keyDeclared p x.generate = .ok false ∧
      f = .undeclaredKey x.id x.generate := by
    have readings := mapM_eq_ok_iff.mp checked
    clear run checked
    generalize g.nodes.filter Lexis.isGenerated = xs at readings
    induction readings with
    | nil => simp
    | cons here _ ih =>
      rw [List.flatten_cons, List.mem_append, mem_keyFindings here, List.exists_mem_cons_iff]
      exact or_congr_right ih
  simp only [members, List.mem_filter, and_assoc]

/-- The words left to phonetic rules are all looked into where their keys are scalars that have texts. -/
theorem exists_undeclaredKeys {g : Graph} (p : Option Phonology)
    (told : ∀ x ∈ g.nodes, x.isGenerated = true → (∃ s, x.generate = .scalar s) ∧ ¬ x.generate.Untold) :
    ∃ keys, g.undeclaredKeys p = .ok keys := by
  rw [undeclaredKeys, exists_map_eq_ok, exists_mapM_eq_ok]
  intro x member
  obtain ⟨inside, left⟩ := List.mem_filter.mp member
  obtain ⟨⟨s, key⟩, text⟩ := told x inside left
  obtain ⟨declared, known⟩ : ∃ declared, keyDeclared p x.generate = .ok declared := by
    rw [key]
    cases s <;> exact ⟨_, rfl⟩
  cases declared with
  | true => exact ⟨_, keyFindings_eq_ok.mpr (.inl ⟨known, rfl⟩)⟩
  | false => exact ⟨_, keyFindings_eq_ok.mpr (.inr ⟨known, text, rfl⟩)⟩

end Graph

theorem Phonology.eq_undeclaredGroup_of_mem {p : Phonology} {name : PhonologyTable} {t : Table (List Pattern)}
    {f : Finding} (member : f ∈ p.undeclaredIn name t) : ∃ key symbol, f = .undeclaredGroup name key symbol := by
  obtain ⟨e, -, inside⟩ := List.mem_flatMap.mp member
  obtain ⟨pattern, -, inside⟩ := List.mem_flatMap.mp inside
  obtain ⟨item, -, said⟩ := List.mem_filterMap.mp inside
  cases item with
  | phoneme text => cases said
  | group symbol =>
    dsimp only at said
    split at said
    · cases said
    · exact ⟨e.1, symbol, (Option.some.inj said).symm⟩

theorem eq_undeclaredGroup_of_mem_undeclaredGroups {p : Option Phonology} {f : Finding}
    (member : f ∈ (p.map Phonology.undeclaredGroups).getD []) : ∃ name key symbol, f = .undeclaredGroup name key symbol := by
  cases p with
  | none => cases member
  | some p =>
    rcases List.mem_append.mp member with group | type
    · exact ⟨_, Phonology.eq_undeclaredGroup_of_mem group⟩
    · exact ⟨_, Phonology.eq_undeclaredGroup_of_mem type⟩

theorem severity_of_mem_undeclaredGroups {p : Option Phonology} {f : Finding}
    (member : f ∈ (p.map Phonology.undeclaredGroups).getD []) : f.severity = .error := by
  obtain ⟨name, key, symbol, rfl⟩ := eq_undeclaredGroup_of_mem_undeclaredGroups member
  rfl

theorem rule_of_mem_missingScripts {transforms : Table Transform} {rules : List GlobalRule}
    {scripts : Option ScriptRunner} {f : Finding} (member : f ∈ missingScripts transforms rules scripts) :
    f.rule = "VAL-SCR-001" := by
  obtain ⟨⟨owner, primitives⟩, -, inside⟩ := List.mem_flatMap.mp member
  obtain ⟨primitive, -, said⟩ := List.mem_filterMap.mp inside
  obtain ⟨file, -, said⟩ := Option.bind_eq_some_iff.mp said
  unfold scriptFinding? at said
  split at said
  · rw [← Option.some.inj said]
    rfl
  · split at said
    · split at said
      · cases said
      · rw [← Option.some.inj said]
        rfl
    · cases said

section Validate

variable {g : Graph} {transforms : Table Transform} {rules : List GlobalRule} {p : Option Phonology}
  {scripts : Option ScriptRunner} {findings : List Finding}

theorem exists_validate_iff : (∃ findings, validate g transforms rules p scripts = .ok findings) ↔
    (∃ ignored, g.ignoredKeys = .ok ignored) ∧ ∃ keys, g.undeclaredKeys p = .ok keys := by
  simp only [validate, exists_bind_eq_ok, exists_pure_eq_ok, and_true, exists_and_right]

/-- Findings are those of each rule. -/
theorem mem_of_validate (checked : validate g transforms rules p scripts = .ok findings) :
    ∃ ignored keys, g.ignoredKeys = .ok ignored ∧ g.undeclaredKeys p = .ok keys ∧ ∀ f, f ∈ findings ↔
      f ∈ g.missingAncestors ∨ f ∈ g.missingTransforms transforms ∨ f ∈ g.cycles ∨ f ∈ g.underspecified ∨
        f ∈ g.sharedOrders ∨ f ∈ ignored ∨ f ∈ keys ∨
        f ∈ (p.map Phonology.undeclaredGroups).getD [] ∨ f ∈ missingScripts transforms rules scripts := by
  obtain ⟨ignored, told, checked⟩ := bind_eq_ok.mp checked
  obtain ⟨keys, run, checked⟩ := bind_eq_ok.mp checked
  cases checked
  exact ⟨ignored, keys, told, run, fun f => by simp only [List.mem_append, or_assoc]⟩

/-- Each rule has its own findings. -/
theorem rule_of_validate (checked : validate g transforms rules p scripts = .ok findings) :
    ∃ ignored keys, g.ignoredKeys = .ok ignored ∧ g.undeclaredKeys p = .ok keys ∧ ∀ f ∈ findings,
      f ∈ g.missingAncestors ∧ f.rule = "VAL-REF-001" ∨ f ∈ g.missingTransforms transforms ∧ f.rule = "VAL-REF-002" ∨
        f ∈ g.cycles ∧ f.rule = "VAL-GRA-001" ∨ f ∈ g.underspecified ∧ f.rule = "VAL-LEX-001" ∨
        f ∈ g.sharedOrders ∧ f.rule = "VAL-LEX-002" ∨ f ∈ ignored ∧ f.rule = "VAL-LEX-003" ∨
        f ∈ keys ∧ f.rule = "VAL-PHO-001" ∨
        f ∈ (p.map Phonology.undeclaredGroups).getD [] ∧ f.rule = "VAL-PHO-002" ∨
        f ∈ missingScripts transforms rules scripts ∧ f.rule = "VAL-SCR-001" := by
  obtain ⟨ignored, keys, told, run, members⟩ := mem_of_validate checked
  refine ⟨ignored, keys, told, run, fun f member => ?_⟩
  refine ((members f).mp member).imp ?ancestor (Or.imp ?transform (Or.imp ?cycle (Or.imp ?bare (Or.imp ?order
    (Or.imp ?ignored (Or.imp ?key (Or.imp ?group ?script)))))))
  case ancestor =>
    intro found
    obtain ⟨x, -, inside⟩ := List.mem_flatMap.mp found
    obtain ⟨e, -, rfl⟩ := List.mem_map.mp inside
    exact ⟨found, rfl⟩
  case transform =>
    intro found
    obtain ⟨x, -, inside⟩ := List.mem_flatMap.mp found
    obtain ⟨e, -, inside⟩ := List.mem_flatMap.mp inside
    obtain ⟨name, -, rfl⟩ := List.mem_map.mp inside
    exact ⟨found, rfl⟩
  case cycle =>
    intro found
    obtain ⟨path, -, rfl⟩ := Option.map_eq_some_iff.mp (Option.mem_toList.mp found)
    exact ⟨found, rfl⟩
  case bare =>
    intro found
    obtain ⟨x, -, -, -, -, rfl⟩ := Graph.mem_underspecified.mp found
    exact ⟨found, rfl⟩
  case order =>
    intro found
    obtain ⟨x, -, rfl⟩ := List.mem_map.mp found
    exact ⟨found, rfl⟩
  case ignored =>
    intro found
    obtain ⟨-, rfl⟩ := Graph.ignoredKeys_eq_ok.mp told
    obtain ⟨x, -, rfl⟩ := List.mem_map.mp found
    exact ⟨found, rfl⟩
  case key =>
    intro found
    obtain ⟨x, -, -, -, rfl⟩ := (Graph.mem_undeclaredKeys run).mp found
    exact ⟨found, rfl⟩
  case group =>
    intro found
    obtain ⟨name, key, symbol, rfl⟩ := eq_undeclaredGroup_of_mem_undeclaredGroups found
    exact ⟨found, rfl⟩
  case script => exact fun found => ⟨found, rule_of_mem_missingScripts found⟩

end Validate

end Etymology
