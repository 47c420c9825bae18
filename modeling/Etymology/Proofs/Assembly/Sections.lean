import Etymology.Proofs.Lexis.Definition
import Etymology.Proofs.Table

namespace Etymology

/-- A word goes by the text of its key. -/
def Graph.withWord (g : Graph) (e : Scalar × Value) : Except Fault Graph :=
  match e.1.written? with
  | none => .error .unsuitable
  | some id => settle (g.addWord id e.2)

/-- The entries of a section of words, one after the other. -/
def Graph.withWords (es : Entries) (g : Graph) : Except Fault Graph :=
  es.foldlM withWord g

theorem Graph.settle_addWords (es : Entries) (g : Graph) : settle (addWords es g) = g.withWords es := by
  induction es generalizing g with
  | nil => rfl
  | cons e es ih =>
    obtain ⟨key, v⟩ := e
    simp only [addWords, withWords, List.foldlM_cons, withWord]
    cases key.written? with
    | none => rfl
    | some id =>
      simp only
      cases added : g.addWord id v with
      | mk h outcome => cases outcome with
        | error fault => rfl
        | ok u => exact ih h

theorem Graph.addWords_eq_ok {es : Entries} {g h : Graph} : addWords es g = (h, .ok ()) ↔ g.withWords es = .ok h := by
  rw [← settle_addWords, settle_eq_ok]

/-- A value that counts as absent is taken like an empty mapping. -/
theorem Value.section?_elim {ρ : Type} (v : Value) (refused : ρ) (f : Entries → ρ) :
    (match v with
      | .mapping entries => f entries
      | v => if v.isFalsy then f [] else refused) = v.section?.elim refused f := by
  cases v with
  | mapping entries => rfl
  | list items => cases items <;> rfl
  | scalar s =>
    cases falsy : s.isFalsy <;> simp [section?, isFalsy, falsy]

/-- A value that counts as absent is taken like an empty list. -/
theorem Value.items?_elim {ρ : Type} (v : Value) (refused : ρ) (f : List Value → ρ) :
    (match v with
      | .list items => f items
      | v => if v.isFalsy then f [] else refused) = v.items?.elim refused f := by
  cases v with
  | list items => rfl
  | mapping entries => cases entries <;> rfl
  | scalar s =>
    cases falsy : s.isFalsy <;> simp [items?, isFalsy, falsy]

namespace Assembly

variable {a b : Assembly} {doc : Entries} {v : Value}

/-- A transform goes by the text of its key, in the place of one of its name if there is one. -/
def withTransform (t : Table Transform) (e : Scalar × Value) : Except Fault (Table Transform) :=
  match e.1.written? with
  | none => .error .unsuitable
  | some name => (Transform.ofValue name e.2).map (t.put name)

/-- The transforms of a section, one after the other. -/
def transformsWith (es : Entries) (t : Table Transform) : Except Fault (Table Transform) :=
  es.foldlM withTransform t

/-- The rules of a section, numbered on from those that are there. -/
def rulesWith (vs : List Value) (rs : List GlobalRule) : Except Fault (List GlobalRule) :=
  vs.foldlM (fun rs v => do return rs ++ [← GlobalRule.ofValue v rs.length]) rs

theorem settle_addTransforms (es : Entries) (a : Assembly) :
    settle (addTransforms es a) = (transformsWith es a.transforms).map fun t => { a with transforms := t } := by
  induction es generalizing a with
  | nil => rfl
  | cons e es ih =>
    obtain ⟨key, v⟩ := e
    simp only [addTransforms, transformsWith, List.foldlM_cons, withTransform]
    cases key.written? with
    | none => rfl
    | some name =>
      simp only
      cases Transform.ofValue name v with
      | error fault => rfl
      | ok t => exact ih _

theorem addTransforms_eq_ok {es : Entries} : addTransforms es a = (b, .ok ()) ↔
    transformsWith es a.transforms = .ok b.transforms ∧ b = { a with transforms := b.transforms } := by
  rw [← settle_eq_ok, settle_addTransforms, map_eq_ok]
  constructor
  · rintro ⟨t, run, rfl⟩
    exact ⟨run, rfl⟩
  · rintro ⟨run, same⟩
    exact ⟨b.transforms, run, same⟩

theorem settle_addRules (vs : List Value) (a : Assembly) :
    settle (addRules vs a) = (rulesWith vs a.rules).map fun rs => { a with rules := rs } := by
  induction vs generalizing a with
  | nil => rfl
  | cons v vs ih =>
    simp only [addRules, rulesWith, List.foldlM_cons]
    cases GlobalRule.ofValue v a.rules.length with
    | error fault => rfl
    | ok r => exact ih _

theorem addRules_eq_ok {vs : List Value} : addRules vs a = (b, .ok ()) ↔
    rulesWith vs a.rules = .ok b.rules ∧ b = { a with rules := b.rules } := by
  rw [← settle_eq_ok, settle_addRules, map_eq_ok]
  constructor
  · rintro ⟨rs, run, rfl⟩
    exact ⟨run, rfl⟩
  · rintro ⟨run, same⟩
    exact ⟨b.rules, run, same⟩

/-- Rules stand in a list, which may itself stand in a mapping. -/
def ruleList : Value → Value
  | .mapping entries => Entries.getD entries "transforms"
  | v => v

/-- What the phonetic section makes of a phonology. A phonology that is not there is taken for an empty one. -/
inductive PhonologyWith : Value → Option Phonology → Option Phonology → Prop
  | absent {p} : PhonologyWith .null p p
  | mapping {es q p} : Phonology.ofEntries es = .ok q → PhonologyWith (.mapping es) p (some ((p.getD {}).merge q))

/-- Each part of the second assembly is that of the first with what one section of the document says. -/
structure Adds (a : Assembly) (doc : Entries) (b : Assembly) : Prop where
  known : ∀ e ∈ doc, e.1 ∈ sections.map Scalar.text
  transforms : ∃ es, (doc.getD "transforms").section? = some es ∧ transformsWith es a.transforms = .ok b.transforms
  rules : ∃ vs, (ruleList (doc.getD "globals")).items? = some vs ∧ rulesWith vs a.rules = .ok b.rules
  phonology : PhonologyWith (doc.getD "phonetics") a.phonology b.phonology
  graph : ∃ es, (doc.getD "words").section? = some es ∧ a.graph.withWords es = .ok b.graph

theorem elim_eq_ok {β : Type} {o : Option β} {fault : Fault} {f : β → Assembly × Except Fault Unit} :
    o.elim (a, .error fault) f = (b, .ok ()) ↔ ∃ x, o = some x ∧ f x = (b, .ok ()) := by
  cases o with
  | none => exact ⟨nofun, nofun⟩
  | some x => exact ⟨fun run => ⟨x, rfl, run⟩, fun ⟨_, same, run⟩ => Option.some.inj same ▸ run⟩

theorem tableOf_eq (name : String) (v : Value) : Phonology.tableOf name v =
    v.section?.elim (.error (.malformed (.tableNotMapping name) none)) (Phonology.tableOfEntries name {}) :=
  v.section?_elim _ _

theorem addTransformSection_eq (v : Value) (a : Assembly) : addTransformSection v a =
    v.section?.elim (a, .error (.document (.sectionNotMapping "transforms"))) fun es => addTransforms es a :=
  v.section?_elim _ _

theorem addRuleSection_eq (v : Value) (a : Assembly) : addRuleSection v a =
    (ruleList v).items?.elim (a, .error (.document (.sectionNotList "globals"))) fun vs => addRules vs a :=
  (ruleList v).items?_elim _ _

theorem addWordSection_eq (v : Value) (a : Assembly) : addWordSection v a =
    v.section?.elim (a, .error (.document (.sectionNotMapping "words"))) fun es =>
      ({ a with graph := (Graph.addWords es a.graph).1 }, (Graph.addWords es a.graph).2) :=
  v.section?_elim _ _

theorem addTransformSection_eq_ok : addTransformSection v a = (b, .ok ()) ↔
    (∃ es, v.section? = some es ∧ transformsWith es a.transforms = .ok b.transforms) ∧
      b = { a with transforms := b.transforms } := by
  simp only [addTransformSection_eq, elim_eq_ok, addTransforms_eq_ok, ← and_assoc, exists_and_right]

theorem addRuleSection_eq_ok : addRuleSection v a = (b, .ok ()) ↔
    (∃ vs, (ruleList v).items? = some vs ∧ rulesWith vs a.rules = .ok b.rules) ∧ b = { a with rules := b.rules } := by
  simp only [addRuleSection_eq, elim_eq_ok, addRules_eq_ok, ← and_assoc, exists_and_right]

theorem addPhoneticSection_eq_ok : addPhoneticSection v a = (b, .ok ()) ↔
    PhonologyWith v a.phonology b.phonology ∧ b = { a with phonology := b.phonology } := by
  have onto : ∀ q, addPhonology q a = { a with phonology := some ((a.phonology.getD {}).merge q) } := by
    intro q
    unfold addPhonology
    cases a.phonology with
    | none => simp [Phonology.merge, Table.empty_putAll]
    | some p => rfl
  constructor
  · intro run
    unfold addPhoneticSection at run
    split at run
    · cases run
      exact ⟨.absent, rfl⟩
    · split at run
      · next es q read =>
        rw [onto] at run
        cases run
        exact ⟨.mapping read, rfl⟩
      · cases run
    · cases run
  · rintro ⟨reads, same⟩
    rw [same]
    generalize b.phonology = p at reads
    cases reads with
    | absent => rfl
    | mapping read => simp only [addPhoneticSection, read, onto]

theorem addWordSection_eq_ok : addWordSection v a = (b, .ok ()) ↔
    (∃ es, v.section? = some es ∧ a.graph.withWords es = .ok b.graph) ∧ b = { a with graph := b.graph } := by
  simp only [addWordSection_eq, elim_eq_ok, ← Graph.addWords_eq_ok]
  constructor
  · rintro ⟨es, read, run⟩
    obtain ⟨same, done⟩ := Prod.mk.inj run
    subst same
    exact ⟨⟨es, read, Prod.ext rfl done⟩, rfl⟩
  · rintro ⟨⟨es, read, run⟩, same⟩
    exact ⟨es, read, by rw [run, ← same]⟩

theorem andThen_eq_ok {step : Assembly → Assembly × Except Fault Unit} {r : Assembly × Except Fault Unit} :
    andThen step r = (b, .ok ()) ↔ ∃ a, r = (a, .ok ()) ∧ step a = (b, .ok ()) := by
  obtain ⟨c, outcome⟩ := r
  cases outcome with
  | error fault => exact ⟨nofun, nofun⟩
  | ok u =>
    constructor
    · intro run
      exact ⟨c, rfl, run⟩
    · rintro ⟨a, ⟨⟩, run⟩
      exact run

theorem checkSections_eq_ok : checkSections doc = .ok () ↔ ∀ e ∈ doc, e.1 ∈ sections.map Scalar.text := by
  have unknown : ((doc.map (·.1)).filter fun k => !(sections.map Scalar.text).contains k).isEmpty = true ↔
      ∀ e ∈ doc, e.1 ∈ sections.map Scalar.text := by
    simp only [List.isEmpty_iff, List.filter_eq_nil_iff, List.forall_mem_map, Bool.not_eq_true', Bool.not_eq_false,
      List.contains_iff_mem]
  rw [← unknown]
  simp only [checkSections]
  split
  · next all => exact ⟨fun _ => all, fun _ => rfl⟩
  · next some =>
    refine ⟨fun run => ?_, fun all => absurd all some⟩
    obtain ⟨names, -, refused⟩ := bind_eq_ok.mp run
    cases refused

theorem addDocument_eq_ok : a.addDocument doc = (b, .ok ()) ↔ a.Adds doc b := by
  have start : ∀ {c : Assembly}, (a, checkSections doc) = (c, .ok ()) ↔ checkSections doc = .ok () ∧ c = a := by
    intro c
    rw [Prod.mk.injEq, and_comm, eq_comm (a := a)]
  simp only [addDocument, andThen_eq_ok, addWordSection_eq_ok, addPhoneticSection_eq_ok, addRuleSection_eq_ok,
    addTransformSection_eq_ok, start, checkSections_eq_ok]
  constructor
  · rintro ⟨a₃, ⟨a₂, ⟨a₁, ⟨_, ⟨known, rfl⟩, transforms, same₁⟩, rules, same₂⟩, phonology, same₃⟩, graph, same₄⟩
    obtain ⟨g₁, t₁, r₁, p₁⟩ := a₁
    obtain ⟨g₂, t₂, r₂, p₂⟩ := a₂
    obtain ⟨g₃, t₃, r₃, p₃⟩ := a₃
    obtain ⟨g, t, r, p⟩ := b
    cases same₁
    cases same₂
    cases same₃
    cases same₄
    exact ⟨known, transforms, rules, phonology, graph⟩
  · rintro ⟨known, transforms, rules, phonology, graph⟩
    exact ⟨{ b with graph := a.graph }, ⟨{ b with graph := a.graph, phonology := a.phonology },
      ⟨{ a with transforms := b.transforms }, ⟨a, ⟨known, rfl⟩, transforms, rfl⟩, rules, rfl⟩, phonology, rfl⟩,
      graph, rfl⟩

end Assembly

end Etymology
