import Etymology.Proofs.Assembly.Sections

namespace Etymology

namespace Phonology

/-- A table is read behind another as it is read by itself and then taken over. -/
theorem tableOfEntries_putAll (name : String) (t u : Table (List Pattern)) (es : Entries) :
    tableOfEntries name (t.putAll u.entries) es = (tableOfEntries name u es).map fun r => t.putAll r.entries := by
  induction es generalizing u with
  | nil => rfl
  | cons e es ih =>
    obtain ⟨key, v⟩ := e
    simp only [tableOfEntries]
    cases alternativesOf name key v with
    | error cause => rfl
    | ok alternatives =>
      cases key.written? with
      | none => rfl
      | some symbol =>
        show tableOfEntries name ((t.putAll u.entries).put symbol alternatives) es = _
        rw [← Table.putAll_entries_put]
        exact ih _

theorem tableOfEntries_append (name : String) (t : Table (List Pattern)) (es fs : Entries) :
    tableOfEntries name t (es ++ fs) = tableOfEntries name t es >>= fun u => tableOfEntries name u fs := by
  induction es generalizing t with
  | nil => rfl
  | cons e es ih =>
    obtain ⟨key, v⟩ := e
    simp only [List.cons_append, tableOfEntries]
    cases alternativesOf name key v with
    | error cause => rfl
    | ok alternatives =>
      cases key.written? with
      | none => rfl
      | some symbol => exact ih (t.put symbol alternatives)

end Phonology

/-- The two tables of a phonetic section. -/
structure PhoneticTables where
  groups : Entries := []
  lexisTypes : Entries := []

namespace PhoneticTables

/-- A phonology with further declarations. -/
def addTo (s : PhoneticTables) (p : Phonology) : Except Fault Phonology := do
  let groups ← Phonology.tableOfEntries "groups" p.groups s.groups
  return ⟨groups, ← Phonology.tableOfEntries "lexis_types" p.lexisTypes s.lexisTypes⟩

/-- Declarations are added to a phonology as a phonology of their own is merged into it. -/
theorem addTo_eq_map_merge (s : PhoneticTables) (p : Phonology) : s.addTo p = (s.addTo {}).map p.merge := by
  have groups := Phonology.tableOfEntries_putAll "groups" p.groups {} s.groups
  have types := Phonology.tableOfEntries_putAll "lexis_types" p.lexisTypes {} s.lexisTypes
  change Phonology.tableOfEntries _ p.groups _ = _ at groups
  change Phonology.tableOfEntries _ p.lexisTypes _ = _ at types
  simp only [addTo, groups, types]
  cases Phonology.tableOfEntries "groups" {} s.groups with
  | error cause => rfl
  | ok gs => cases Phonology.tableOfEntries "lexis_types" {} s.lexisTypes <;> rfl

def append (s s' : PhoneticTables) : PhoneticTables :=
  ⟨s.groups ++ s'.groups, s.lexisTypes ++ s'.lexisTypes⟩

theorem addTo_eq_ok {s : PhoneticTables} {p q : Phonology} : s.addTo p = .ok q ↔
    Phonology.tableOfEntries "groups" p.groups s.groups = .ok q.groups ∧
      Phonology.tableOfEntries "lexis_types" p.lexisTypes s.lexisTypes = .ok q.lexisTypes := by
  simp only [addTo, bind_eq_ok]
  constructor
  · rintro ⟨groups, first, types, second, same⟩
    cases same
    exact ⟨first, second⟩
  · rintro ⟨first, second⟩
    exact ⟨_, first, _, second, rfl⟩

theorem append_addTo_eq_ok {s s' : PhoneticTables} {p r : Phonology} :
    (s.append s').addTo p = .ok r ↔ ∃ q, s.addTo p = .ok q ∧ s'.addTo q = .ok r := by
  simp only [addTo_eq_ok, append, Phonology.tableOfEntries_append, bind_eq_ok]
  constructor
  · rintro ⟨⟨groups, first, later⟩, types, second, last⟩
    exact ⟨⟨groups, types⟩, ⟨first, second⟩, later, last⟩
  · rintro ⟨q, ⟨first, second⟩, later, last⟩
    exact ⟨⟨_, first, later⟩, _, second, last⟩

end PhoneticTables

/-- What a document has in its sections. -/
structure Contents where
  transforms : Entries := []
  rules : List Value := []
  phonetics : Option PhoneticTables := none
  words : Entries := []

namespace Contents

/-- The sections of the second behind those of the first. -/
def append (c d : Contents) : Contents where
  transforms := c.transforms ++ d.transforms
  rules := c.rules ++ d.rules
  phonetics := match c.phonetics, d.phonetics with
    | none, s => s
    | s, none => s
    | some s, some s' => some (s.append s')
  words := c.words ++ d.words

def concat (cs : List Contents) : Contents :=
  cs.foldr append {}

/-- A document with these sections. -/
def document (c : Contents) : Entries :=
  [(.text "words", .mapping c.words), (.text "transforms", .mapping c.transforms), (.text "globals", .list c.rules)] ++
    match c.phonetics with
    | none => []
    | some s => [(.text "phonetics", .mapping [(.text "groups", .mapping s.groups),
        (.text "lexis_types", .mapping s.lexisTypes)])]

def phoneticsWith (s? : Option PhoneticTables) (p : Option Phonology) : Except Fault (Option Phonology) :=
  match s? with
  | none => .ok p
  | some s => (s.addTo (p.getD {})).map some

/-- Each part of the second assembly is that of the first with what one of the sections says. -/
structure Adds (c : Contents) (a b : Assembly) : Prop where
  transforms : Assembly.transformsWith c.transforms a.transforms = .ok b.transforms
  rules : Assembly.rulesWith c.rules a.rules = .ok b.rules
  phonology : phoneticsWith c.phonetics a.phonology = .ok b.phonology
  graph : a.graph.withWords c.words = .ok b.graph

theorem phoneticsWith_append {c d : Contents} {p r : Option Phonology} :
    phoneticsWith (c.append d).phonetics p = .ok r ↔
      ∃ q, phoneticsWith c.phonetics p = .ok q ∧ phoneticsWith d.phonetics q = .ok r := by
  cases hc : c.phonetics with
  | none => simp [append, hc, phoneticsWith]
  | some s =>
    cases hd : d.phonetics with
    | none => simp [append, hc, hd, phoneticsWith]
    | some s' =>
      simp only [append, hc, hd, phoneticsWith, map_eq_ok, PhoneticTables.append_addTo_eq_ok]
      constructor
      · rintro ⟨r', ⟨q, first, second⟩, rfl⟩
        exact ⟨some q, ⟨q, first, rfl⟩, r', second, rfl⟩
      · rintro ⟨_, ⟨q, first, rfl⟩, r', second, rfl⟩
        exact ⟨r', ⟨q, first, second⟩, rfl⟩

/-- A phonology is there once one was there or a section describes one. -/
theorem eq_none_of_phoneticsWith {s? : Option PhoneticTables} {p q : Option Phonology}
    (said : phoneticsWith s? p = .ok q) : q = none ↔ p = none ∧ s? = none := by
  cases s? with
  | none =>
    cases said
    simp
  | some s =>
    obtain ⟨r, -, rfl⟩ := map_eq_ok.mp said
    simp

theorem phonetics_concat {cs : List Contents} : (concat cs).phonetics = none ↔ ∀ c ∈ cs, c.phonetics = none := by
  induction cs with
  | nil => simp [concat]
  | cons c cs ih =>
    rw [List.forall_mem_cons, ← ih]
    show (c.append (concat cs)).phonetics = none ↔ _
    cases h : c.phonetics <;> cases h' : (concat cs).phonetics <;> simp [append, h, h']

theorem transformsWith_append {es fs : Entries} {t u : Table Transform} :
    Assembly.transformsWith (es ++ fs) t = .ok u ↔
      ∃ m, Assembly.transformsWith es t = .ok m ∧ Assembly.transformsWith fs m = .ok u := by
  rw [Assembly.transformsWith, List.foldlM_append, bind_eq_ok]
  rfl

theorem rulesWith_append {vs ws : List Value} {rs ss : List GlobalRule} :
    Assembly.rulesWith (vs ++ ws) rs = .ok ss ↔
      ∃ m, Assembly.rulesWith vs rs = .ok m ∧ Assembly.rulesWith ws m = .ok ss := by
  rw [Assembly.rulesWith, List.foldlM_append, bind_eq_ok]
  rfl

theorem withWords_append {es fs : Entries} {g h : Graph} :
    g.withWords (es ++ fs) = .ok h ↔ ∃ m, g.withWords es = .ok m ∧ m.withWords fs = .ok h := by
  rw [Graph.withWords, List.foldlM_append, bind_eq_ok]
  rfl

/-- The sections of two documents may be added in one go. -/
theorem append_adds {c d : Contents} {a b : Assembly} :
    (c.append d).Adds a b ↔ ∃ m, c.Adds a m ∧ d.Adds m b := by
  constructor
  · rintro ⟨transforms, rules, phonology, graph⟩
    obtain ⟨t, t₁, t₂⟩ := transformsWith_append.mp transforms
    obtain ⟨rs, r₁, r₂⟩ := rulesWith_append.mp rules
    obtain ⟨p, p₁, p₂⟩ := phoneticsWith_append.mp phonology
    obtain ⟨g, g₁, g₂⟩ := withWords_append.mp graph
    exact ⟨⟨g, t, rs, p⟩, ⟨t₁, r₁, p₁, g₁⟩, ⟨t₂, r₂, p₂, g₂⟩⟩
  · rintro ⟨m, first, second⟩
    exact ⟨transformsWith_append.mpr ⟨_, first.transforms, second.transforms⟩,
      rulesWith_append.mpr ⟨_, first.rules, second.rules⟩,
      phoneticsWith_append.mpr ⟨_, first.phonology, second.phonology⟩,
      withWords_append.mpr ⟨_, first.graph, second.graph⟩⟩

end Contents

namespace Assembly

/-- Adds documents one after the other. After a mistake the assembly holds what came before it. -/
def addDocuments : List Entries → Assembly → Assembly × Except Fault Unit
  | [], a => (a, .ok ())
  | doc :: docs, a => andThen (addDocuments docs) (a.addDocument doc)

/-- The document has no sections but those that are known, each absent or of the form that is asked for. -/
structure Sectioned (doc : Entries) : Prop where
  known : ∀ e ∈ doc, e.1 ∈ sections.map Scalar.text
  words : (doc.getD "words").section?.isSome
  transforms : (doc.getD "transforms").section?.isSome
  globals : (ruleList (doc.getD "globals")).items?.isSome
  phonetics : doc.getD "phonetics" = .null ∨ ∃ es, doc.getD "phonetics" = .mapping es ∧
    (Entries.getD es "groups").section?.isSome ∧ (Entries.getD es "lexis_types").section?.isSome

def contents (doc : Entries) : Contents where
  transforms := (doc.getD "transforms").section?.getD []
  rules := (ruleList (doc.getD "globals")).items?.getD []
  phonetics := match doc.getD "phonetics" with
    | .mapping es => some ⟨(Entries.getD es "groups").section?.getD [], (Entries.getD es "lexis_types").section?.getD []⟩
    | _ => none
  words := (doc.getD "words").section?.getD []

/-- The document that has the sections of all of some documents. -/
def merged (docs : List Entries) : Entries :=
  (Contents.concat (docs.map contents)).document

theorem contents_document (c : Contents) : contents c.document = c := by
  obtain ⟨transforms, rules, phonetics, words⟩ := c
  cases phonetics <;> rfl

theorem sectioned_document (c : Contents) : Sectioned c.document := by
  obtain ⟨transforms, rules, phonetics, words⟩ := c
  cases phonetics with
  | none => exact ⟨by simp [Contents.document, sections], rfl, rfl, rfl, .inl rfl⟩
  | some s => exact ⟨by simp [Contents.document, sections], rfl, rfl, rfl, .inr ⟨_, rfl, rfl, rfl⟩⟩

theorem phonologyWith_iff {doc : Entries} {p q : Option Phonology} (sectioned : Sectioned doc) :
    PhonologyWith (doc.getD "phonetics") p q ↔ Contents.phoneticsWith (contents doc).phonetics p = .ok q := by
  rcases sectioned.phonetics with absent | ⟨es, given, groups, types⟩
  · simp only [contents, absent, Contents.phoneticsWith]
    constructor
    · rintro ⟨⟩
      rfl
    · rintro ⟨⟩
      exact .absent
  · obtain ⟨gs, groups⟩ := Option.isSome_iff_exists.mp groups
    obtain ⟨ls, types⟩ := Option.isSome_iff_exists.mp types
    have read : Phonology.ofEntries es = PhoneticTables.addTo ⟨gs, ls⟩ {} := by
      simp only [Phonology.ofEntries, tableOf_eq, groups, types]
      rfl
    simp only [contents, given, groups, types, Contents.phoneticsWith, Option.getD_some,
      PhoneticTables.addTo_eq_map_merge _ (p.getD {}), map_eq_ok, ← read]
    constructor
    · intro said
      cases said with
      | mapping parsed => exact ⟨_, ⟨_, parsed, rfl⟩, rfl⟩
    · rintro ⟨_, ⟨r, read, rfl⟩, rfl⟩
      exact .mapping read

theorem addDocument_eq_ok_iff_adds {a b : Assembly} {doc : Entries} (sectioned : Sectioned doc) :
    a.addDocument doc = (b, .ok ()) ↔ (contents doc).Adds a b := by
  obtain ⟨words, hasWords⟩ := Option.isSome_iff_exists.mp sectioned.words
  obtain ⟨transforms, hasTransforms⟩ := Option.isSome_iff_exists.mp sectioned.transforms
  obtain ⟨rules, hasRules⟩ := Option.isSome_iff_exists.mp sectioned.globals
  rw [addDocument_eq_ok]
  constructor
  · rintro ⟨-, ⟨ts, ht, transforms⟩, ⟨rs, hr, rules⟩, phonology, ⟨ws, hw, graph⟩⟩
    refine ⟨?_, ?_, (phonologyWith_iff sectioned).mp phonology, ?_⟩
    · rwa [contents, ht]
    · rwa [contents, hr]
    · rwa [contents, hw]
  · rintro ⟨ts, rs, phonology, ws⟩
    rw [contents, hasTransforms] at ts
    rw [contents, hasRules] at rs
    rw [contents, hasWords] at ws
    exact ⟨sectioned.known, ⟨_, hasTransforms, ts⟩, ⟨_, hasRules, rs⟩, (phonologyWith_iff sectioned).mpr phonology,
      ⟨_, hasWords, ws⟩⟩

theorem addDocuments_eq_ok {docs : List Entries} (sectioned : ∀ doc ∈ docs, Sectioned doc) {a b : Assembly} :
    addDocuments docs a = (b, .ok ()) ↔ (Contents.concat (docs.map contents)).Adds a b := by
  induction docs generalizing a with
  | nil =>
    constructor
    · rintro ⟨⟩
      exact ⟨rfl, rfl, rfl, rfl⟩
    · rintro ⟨transforms, rules, phonology, graph⟩
      obtain ⟨g, t, rs, p⟩ := a
      obtain ⟨g', t', rs', p'⟩ := b
      cases transforms
      cases rules
      cases phonology
      cases graph
      rfl
  | cons doc docs ih =>
    obtain ⟨here, later⟩ := List.forall_mem_cons.mp sectioned
    simp only [addDocuments, andThen_eq_ok, addDocument_eq_ok_iff_adds here, ih later]
    exact Contents.append_adds.symm

theorem phonetics_contents {doc : Entries} (sectioned : Sectioned doc) :
    (contents doc).phonetics = none ↔ doc.getD "phonetics" = .null := by
  rcases sectioned.phonetics with absent | ⟨es, given, -, -⟩
  · simp [contents, absent, Value.null]
  · simp [contents, given, Value.null]

/-- Documents that are added one after the other come to what the one document does that has the sections of
all of them, and are accepted if that is. Names need not differ: the last declaration of a name counts either
way, and a word that is declared twice is refused either way. -/
theorem addDocuments_merged {docs : List Entries} (sectioned : ∀ doc ∈ docs, Sectioned doc) (a : Assembly) :
    (∀ b, addDocuments docs a = (b, .ok ()) ↔ a.addDocument (merged docs) = (b, .ok ())) ∧
      ∀ b, addDocuments docs a = (b, .ok ()) →
        (b.phonology = none ↔ a.phonology = none ∧ ∀ doc ∈ docs, doc.getD "phonetics" = .null) := by
  constructor
  · intro b
    rw [addDocuments_eq_ok sectioned, merged, addDocument_eq_ok_iff_adds (sectioned_document _), contents_document]
  · intro b accepted
    have said := ((addDocuments_eq_ok sectioned).mp accepted).phonology
    rw [Contents.eq_none_of_phoneticsWith said, Contents.phonetics_concat, List.forall_mem_map]
    exact and_congr_right' (forall₂_congr fun doc member => phonetics_contents (sectioned doc member))

/-- A project in two documents, with rules in both and a phonology in the second. -/
def volumes : List Entries :=
  [[(.text "words", .mapping [(.text "aqua", .mapping [(.text "word", .text "aqua")])]),
    (.text "globals", .mapping [(.text "transforms", .list [.mapping [(.text "transforms", .list [.text "loanword"])]])])],
   [(.text "globals", .list [.mapping [(.text "transforms", .list [.text "loanword"])]]),
    (.text "phonetics", .mapping [(.text "groups", .mapping [(.text "C", .text "t")])]),
    (.text "words", .mapping [(.text "ignis", .mapping [(.text "word", .text "ignis")])])]]

theorem volumes_sectioned : ∀ doc ∈ volumes, Sectioned doc := by
  simp only [volumes, List.forall_mem_cons, List.not_mem_nil, false_imp_iff, implies_true, and_true]
  exact ⟨⟨by simp [sections], rfl, rfl, rfl, .inl rfl⟩, ⟨by simp [sections], rfl, rfl, rfl, .inr ⟨_, rfl, rfl, rfl⟩⟩⟩

/-- The rules of the second document are numbered on from those of the first. -/
theorem volumes_merged :
    (∀ doc ∈ volumes, Sectioned doc) ∧ ∃ b, addDocuments volumes {} = (b, .ok ()) ∧
      ({} : Assembly).addDocument (merged volumes) = (b, .ok ()) ∧
      b.rules.map GlobalRule.name = ["global #1", "global #2"] ∧ b.phonology ≠ none := by
  have accepted : (addDocuments volumes {}).2.toOption.isSome = true := by decide +kernel
  have named : (addDocuments volumes {}).1.rules.map GlobalRule.name = ["global #1", "global #2"] := by decide +kernel
  obtain ⟨same, absent⟩ := addDocuments_merged volumes_sectioned {}
  cases run : addDocuments volumes {} with
  | mk b outcome =>
    rw [run] at accepted named
    cases outcome with
    | error fault => cases accepted
    | ok u =>
      refine ⟨volumes_sectioned, b, rfl, (same b).mp run, named, ?_⟩
      rintro none
      have silent := ((absent b run).mp none).2 _ (List.mem_cons_of_mem _ (List.mem_singleton_self _))
      cases silent

end Assembly

end Etymology
