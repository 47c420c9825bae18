import Etymology.Project
import Etymology.Proofs.Graph.Daughter
import Etymology.Proofs.Graph.Seeding
import Etymology.Proofs.Lexicon.Growth

namespace Etymology

namespace Project

/-- Each name that is chosen is that of a transform in the table, or of one chosen before. -/
def Known (table : Table Transform) (choices : List TransformChoice) : Prop :=
  ∀ before name after, choices = before ++ .named name :: after →
    table.contains name = true ∨ ∃ t, .defined t ∈ before ∧ t.name = name

/-- The transform that a choice stands for, where names mean what a table says. -/
def chosen? (table : Table Transform) : TransformChoice → Option Transform
  | .named name => table.get? name
  | .defined t => some t

def chosenName : TransformChoice → String
  | .named name => name
  | .defined t => t.name

section Choose

variable {table : Table Transform} {choices : List TransformChoice}

theorem Known.of_named {name : String} (known : Known table (.named name :: choices)) :
    table.contains name = true ∧ Known table choices := by
  constructor
  · simpa using known [] name choices rfl
  · rintro before other after rfl
    simpa using known (.named name :: before) other after rfl

theorem Known.of_defined {t : Transform} (known : Known table (.defined t :: choices)) :
    Known (table.put t.name t) choices := by
  rintro before other after rfl
  rw [Table.contains_put]
  rcases known (.defined t :: before) other after rfl with present | ⟨u, member, same⟩
  · exact .inl (by simp [present])
  · rcases List.mem_cons.mp member with here | earlier
    · cases here
      exact .inl (by simp [same])
    · exact .inr ⟨u, earlier, same⟩

/-- Known names are refused only because a transform that is chosen has another meaning already. -/
theorem chooseTransforms_error {fault : Fault} (known : Known table choices)
    (failed : chooseTransforms choices table = .error fault) :
    ∃ name, fault = .duplicate (.transform name) := by
  induction choices generalizing table with
  | nil => cases failed
  | cons choice choices ih =>
    cases choice with
    | named name =>
      obtain ⟨present, later⟩ := known.of_named
      rw [chooseTransforms, if_pos present] at failed
      split at failed
      · cases failed
      · next run =>
        cases failed
        exact ih later run
    | defined t =>
      rw [chooseTransforms] at failed
      split at failed
      · split at failed
        · cases failed
        · next run =>
          cases failed
          exact ih known.of_defined run
      · cases failed
        exact ⟨t.name, rfl⟩

/-- What is chosen is a table that says all that the old one says, and names that mean in it what was
chosen. -/
theorem chooseTransforms_ok {table' : Table Transform} {names : List String}
    (run : chooseTransforms choices table = .ok (table', names)) :
    names = choices.map chosenName ∧
      (∀ name t, table.get? name = some t → table'.get? name = some t) ∧
      ∀ choice ∈ choices, table'.get? (chosenName choice) ≠ none ∧
        chosen? table' choice = table'.get? (chosenName choice) := by
  induction choices generalizing table names with
  | nil =>
    cases run
    exact ⟨rfl, fun _ _ found => found, nofun⟩
  | cons choice choices ih =>
    cases choice with
    | named name =>
      rw [chooseTransforms] at run
      split at run
      · next present =>
        split at run
        · next rest =>
          cases run
          obtain ⟨rfl, kept, means⟩ := ih rest
          obtain ⟨t, found⟩ := Table.exists_get?_of_contains present
          refine ⟨rfl, kept, List.forall_mem_cons.mpr ⟨⟨?_, rfl⟩, means⟩⟩
          simp [chosenName, kept name t found]
        · cases run
      · cases run
    | defined t =>
      rw [chooseTransforms] at run
      split at run
      · next agrees =>
        split at run
        · next rest =>
          cases run
          obtain ⟨rfl, kept, means⟩ := ih rest
          have here := kept t.name t (Table.get?_put_self table t.name t)
          refine ⟨rfl, fun name u found => kept name u ?_, List.forall_mem_cons.mpr ⟨?_, means⟩⟩
          · rw [Table.get?_put]
            split
            · next same =>
              rw [same, found] at agrees
              have equal : u = t := by simpa using agrees
              rw [equal]
            · exact found
          · simp [chosenName, chosen?, here]
        · cases run
      · cases run

end Choose

theorem mapM_chosen? {table : Table Transform} {choices : List TransformChoice}
    (means : ∀ choice ∈ choices, table.get? (chosenName choice) ≠ none ∧
      chosen? table choice = table.get? (chosenName choice)) :
    ∃ ts, choices.mapM (chosen? table) = some ts ∧
      (choices.map chosenName).mapM table.get? = some ts := by
  induction choices with
  | nil => exact ⟨[], rfl, rfl⟩
  | cons choice choices ih =>
    obtain ⟨⟨present, same⟩, later⟩ := List.forall_mem_cons.mp means
    obtain ⟨t, found⟩ := Option.ne_none_iff_exists'.mp present
    obtain ⟨ts, chosen, named⟩ := ih later
    refine ⟨t :: ts, ?_, ?_⟩
    · simp [chosen, same, found]
    · simp [named, found]

theorem contains_of_chosen {table : Table Transform} {choices : List TransformChoice}
    (means : ∀ choice ∈ choices, table.get? (chosenName choice) ≠ none ∧
      chosen? table choice = table.get? (chosenName choice)) :
    ∀ name ∈ choices.map chosenName, table.contains name = true := by
  intro name member
  obtain ⟨choice, inside, rfl⟩ := List.mem_map.mp member
  obtain ⟨t, found⟩ := Option.ne_none_iff_exists'.mp (means choice inside).1
  exact Table.contains_of_get? found

section Build

variable {p : Project}

/-- Where no lexis is left to phonetic rules, there is nothing to seed. -/
theorem seeded_settled (settled : ∀ x ∈ p.graph.nodes, x.isGenerated = false) (picks : Picks) :
    p.seeded picks = (.ok p, picks) := by
  unfold seeded
  cases p.generator with
  | none => rfl
  | some generator => simp only [Graph.seed, Graph.seedEach_settled settled]

theorem build_of_referential (p : Project) (settled : ∀ x ∈ p.graph.nodes, x.isGenerated = false)
    (sound : p.graph.Referential p.transforms)
    (quiet : (p.phonology.map Phonology.undeclaredGroups).getD [] = []) (picks : Picks) :
    p.build true picks = (.ok p, picks) := by
  obtain ⟨findings, checked, clean⟩ :=
    (Graph.validate_clean_iff p.rules p.phonology p.scripts settled).mpr ⟨sound, quiet⟩
  have passed : p.check = .ok () := by
    rw [check, Project.findings, checked]
    exact Finding.raise_of_clean clean
  rw [build, if_pos rfl, passed]
  exact seeded_settled settled picks

end Build

/-- What the new lexis of a daughter language is to make of the word of the lexis it is a daughter of: the
transforms in turn, with that lexis carrying its word, and then the global rules. A script that fails in a
transform is reported for the new lexis. -/
def daughterWord (p : Project) (ts : List Transform) (s node : Lexis) (w : Word) : Except Fault Word := do
  let c ← (ts.foldlM (Transform.run (s.withWord w) p.scripts) w).mapError (Lexicon.blameScript node.id)
  GlobalRule.runAll (node.withWord c) [s.withWord w] p.scripts p.rules c

/-- The second project has a daughter language in addition to all of the first, whose lexes, transforms and
words are what they were. -/
structure ExtendedBy (p d : Project) (plan : DaughterPlan) (choices : List TransformChoice)
    (created : List String) : Prop where
  parts : d = { p with graph := d.graph, transforms := d.transforms }
  transforms : ∀ name t, p.transforms.get? name = some t → d.transforms.get? name = some t
  each : created.length = (p.graph.nodes.filter plan.selects).length
  graph : p.graph.GrownBy d.graph (DaughterPlan.daughters { plan with transforms := choices.map chosenName }
    (p.graph.nodes.filter plan.selects) created)
  words : ∀ id ∈ p.graph.ids, ∀ picks picks' : Picks,
    (d.lexicon.resolve id { picks := picks' }).1 = (p.lexicon.resolve id { picks := picks }).1
  daughters : ∃ ts, choices.mapM (chosen? d.transforms) = some ts ∧
    ∀ s id, (s, id) ∈ (p.graph.nodes.filter plan.selects).zip created → ∀ (picks picks' : Picks) w,
      (p.lexicon.resolve s.id { picks := picks }).1 = .ok w →
      (d.lexicon.resolve id { picks := picks' }).1 =
        p.daughterWord ts s (DaughterPlan.daughterOf { plan with transforms := choices.map chosenName } s id) w

section Extended

variable {p : Project} {graph : Graph} {table : Table Transform} {plan : DaughterPlan} {xs : List Lexis}
  {created : List String}

/-- No daughter is left to phonetic rules: each has a link. -/
theorem settled_of_daughters (settled : ∀ x ∈ p.graph.nodes, x.isGenerated = false)
    (grown : p.graph.GrownBy graph (plan.daughters xs created)) : ∀ x ∈ graph.nodes, x.isGenerated = false := by
  intro x member
  rw [grown.nodes] at member
  rcases List.mem_append.mp member with old | new
  · exact settled x old
  · obtain ⟨⟨s, id⟩, -, rfl⟩ := List.mem_map.mp new
    simp [Lexis.isGenerated, DaughterPlan.daughterOf]

/-- References are as sound as they were, where the table has the transforms of the daughters too. -/
theorem referential_of_daughters (sound : p.graph.Referential p.transforms)
    (grown : p.graph.GrownBy graph (plan.daughters xs created))
    (kept : ∀ name t, p.transforms.get? name = some t → table.get? name = some t)
    (named : ∀ name ∈ plan.transforms, table.contains name = true) : graph.Referential table := by
  refine ⟨grown.closed sound.closed, fun x member e link name used => ?_,
    grown.acyclic sound.closed sound.acyclic, fun x member => ?_⟩
  · rw [grown.nodes] at member
    rcases List.mem_append.mp member with old | new
    · obtain ⟨t, found⟩ := Table.exists_get?_of_contains (sound.named x old e link name used)
      exact Table.contains_of_get? (kept name t found)
    · obtain ⟨⟨s, id⟩, -, rfl⟩ := List.mem_map.mp new
      obtain rfl := List.mem_singleton.mp link
      exact named name used
  · rw [grown.nodes] at member
    rcases List.mem_append.mp member with old | new
    · exact sound.told x old
    · obtain ⟨⟨s, id⟩, -, rfl⟩ := List.mem_map.mp new
      exact nofun

/-- With more lexes and more transforms, what was there derives all that it came to before. -/
theorem derives_of_old (settled : ∀ x ∈ p.graph.nodes, x.isGenerated = false)
    (sound : p.graph.Referential p.transforms) (grown : p.graph.GrownBy graph (plan.daughters xs created))
    (kept : ∀ name t, p.transforms.get? name = some t → table.get? name = some t) {id : String}
    (member : id ∈ p.graph.ids) (picks : Picks) :
    (lexicon { p with graph := graph, transforms := table }).Derives id
      (p.lexicon.resolve id { picks := picks }).1 := by
  have within : p.lexicon.Within (lexicon { p with graph := graph, transforms := table }) :=
    ⟨grown.get?_of_old, fun found => kept _ _ found, rfl, rfl⟩
  exact (Lexicon.derives_resolve settled sound picks id).within within sound member

/-- A daughter derives its word from the word that its one ancestor has always had. -/
theorem derives_daughter {d : Project} (same : d.rules = p.rules ∧ d.scripts = p.scripts) {ts : List Transform}
    (named : plan.transforms.mapM d.transforms.get? = some ts) {s : Lexis} {id : String} {w : Word}
    (source : d.graph.get? s.id = some s) (node : d.graph.get? id = some (plan.daughterOf s id))
    (ancestor : d.lexicon.Derives s.id (.ok w)) :
    d.lexicon.Derives id (p.daughterWord ts s (plan.daughterOf s id) w) := by
  have derives := Lexicon.Derives.derived (l := d.lexicon) (fun _ => .ok w) node rfl
    (by simp [DaughterPlan.daughterOf]) fun e link => by
      obtain rfl := List.mem_singleton.mp link
      exact ancestor
  rw [Lexicon.derive_single rfl source rfl, Lexicon.pipeline, Lexicon.mapM_transformNamed,
    Lexicon.transformsOf_of_mapM named] at derives
  rw [daughterWord, ← same.1, ← same.2]
  exact derives

end Extended

/-- A project without errors in which no word is left to phonetic rules always has a daughter language, for
any transforms that are defined and not given a second meaning. No choice is made for it. -/
theorem withDaughter_extended {p : Project} {findings : List Finding} (checked : p.findings = .ok findings)
    (clean : ∀ f ∈ findings, f.severity ≠ .error) (settled : ∀ x ∈ p.graph.nodes, x.isGenerated = false)
    {plan : DaughterPlan} (plain : plan.idTemplate = "\x7bid\x7d-\x7blanguage\x7d")
    {choices : List TransformChoice} (known : Known p.transforms choices) (picks : Picks)
    (unambiguous : ∀ kind, (p.withDaughter plan choices picks).1 ≠ .error (.duplicate kind)) :
    ∃ d created, p.withDaughter plan choices picks = (.ok (d, created), picks) ∧
      p.ExtendedBy d plan choices created := by
  obtain ⟨sound, quiet⟩ := (Graph.validate_clean_iff _ _ _ settled).mp ⟨findings, checked, clean⟩
  unfold withDaughter at unambiguous ⊢
  split
  · next fault failed =>
    obtain ⟨name, rfl⟩ := chooseTransforms_error known failed
    rw [failed] at unambiguous
    exact absurd rfl (unambiguous (.transform name))
  · next table names chosen =>
    obtain ⟨rfl, kept, means⟩ := chooseTransforms_ok chosen
    obtain ⟨ts, standFor, named⟩ := mapM_chosen? means
    have template : { plan with transforms := choices.map chosenName }.idTemplate = "\x7bid\x7d-\x7blanguage\x7d" := plain
    obtain ⟨graph, created, run, length, grown⟩ :=
      Graph.withDaughter_grown fun x (_ : x ∈ p.graph.nodes.filter _) => DaughterPlan.candidate?_ne_none template x
    have settledGrown := settled_of_daughters settled grown
    have soundGrown := referential_of_daughters sound grown kept (contains_of_chosen means)
    have built := build_of_referential { p with graph := graph, transforms := table } settledGrown soundGrown
      quiet picks
    have old {id : String} (member : id ∈ p.graph.ids) (picks : Picks) :=
      derives_of_old settled sound grown kept member picks
    refine ⟨{ p with graph := graph, transforms := table }, created, by simp only [run, built], rfl, kept,
      length, grown, ?_, ts, standFor, ?_⟩
    · intro id member picks picks'
      exact Lexicon.resolve_of_derives settledGrown soundGrown (old member picks) picks'
    · intro s id pair picks picks' w word
      have selected := (List.mem_filter.mp (List.of_mem_zip pair).1).1
      have source := grown.get?_of_old (Graph.get?_of_mem selected)
      have node := grown.get?_of_new (List.mem_map.mpr ⟨(s, id), pair, rfl⟩)
      have ancestor := word ▸ old (List.mem_map.mpr ⟨s, selected, rfl⟩) picks
      refine Lexicon.resolve_of_derives settledGrown soundGrown ?_ picks'
      exact derives_daughter (d := { p with graph := graph, transforms := table }) ⟨rfl, rfl⟩ named source node
        ancestor

/-- A cloth and what is made of it, of the same name. -/
def drapery : Project where
  graph := {
    nodes := [
      { id := "cloth", word := some ⟨["b", "u", "r", "r", "a"]⟩, language := "Latin" },
      { id := "cloak", language := "Latin", etymons := [⟨"cloth", [], 0⟩] }]
    ids_nodup := by decide }
  transforms := ⟨[("single", ⟨"single", [.letterReplace ⟨["r", "r"]⟩ ⟨["r"]⟩ .all], none⟩)], by decide⟩

def weaken : Transform :=
  ⟨"weaken", [.letterReplace ⟨["a"]⟩ ⟨["e"]⟩ .last], none⟩

/-- Both words go through the transform that was defined and the one that is new. -/
theorem drapery_extended :
    drapery.findings = .ok [] ∧ Known drapery.transforms [.named "single", .defined weaken] ∧
      ∃ d created, drapery.withDaughter { source := "Latin", language := "Old French" }
          [.named "single", .defined weaken] {} = (.ok (d, created), {}) ∧ created.length = 2 ∧
        (d.lexicon.resolve "cloak" {}).1 = .ok ⟨["b", "u", "r", "r", "a"]⟩ ∧
        ∀ id ∈ created, (d.lexicon.resolve id {}).1 = .ok ⟨["b", "u", "r", "e"]⟩ := by
  have checked : drapery.findings = .ok [] := by decide +kernel
  have known : Known drapery.transforms [.named "single", .defined weaken] := by
    intro before name after split
    have member : TransformChoice.named name ∈ [.named "single", .defined weaken] := by simp [split]
    obtain rfl : name = "single" := by simpa using member
    exact .inl (by decide)
  have made : ((drapery.withDaughter { source := "Latin", language := "Old French" }
      [.named "single", .defined weaken] {}).1.toOption.isSome) = true := by
    decide +kernel
  obtain ⟨d, created, run, extended⟩ := withDaughter_extended checked (by decide) (by decide) rfl known {}
    (fun kind failed => by rw [failed] at made; cases made)
  have cloth : (drapery.lexicon.resolve "cloth" {}).1 = .ok ⟨["b", "u", "r", "r", "a"]⟩ := by decide +kernel
  have cloak : (drapery.lexicon.resolve "cloak" {}).1 = .ok ⟨["b", "u", "r", "r", "a"]⟩ := by decide +kernel
  refine ⟨checked, known, d, created, run, extended.each, ?_, ?_⟩
  · rw [extended.words "cloak" (by decide) {} {}, cloak]
  · intro id member
    obtain ⟨ts, standFor, daughters⟩ := extended.daughters
    have single := extended.transforms "single" _ rfl
    obtain rfl : [⟨"single", [.letterReplace ⟨["r", "r"]⟩ ⟨["r"]⟩ .all], none⟩, weaken] = ts := by
      simpa [chosen?, single] using standFor
    rw [← List.map_snd_zip extended.each.le] at member
    obtain ⟨⟨s, _⟩, pair, rfl⟩ := List.mem_map.mp member
    have all : s ∈ drapery.graph.nodes := (List.mem_filter.mp (List.of_mem_zip pair).1).1
    simp only [drapery, List.mem_cons, List.not_mem_nil, or_false] at all
    rcases all with rfl | rfl
    · exact daughters _ _ pair {} {} _ cloth
    · exact daughters _ _ pair {} {} _ cloak

end Project

end Etymology
