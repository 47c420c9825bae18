import Etymology.Proofs.Assembly.Words
import Etymology.Proofs.Referential

namespace Etymology

/-- A value is the key of an entry, and not one that counts as absent. -/
def Value.IsKeyOf (v : Value) (es : Entries) : Prop :=
  ∃ e ∈ es, v = .scalar e.1 ∧ e.1.isFalsy = false

namespace Entries

def under (es : Entries) (key : String) : Entries :=
  (es.getD key).section?.getD []

/-- The links that the entry of a word describes. -/
def links (es : Entries) : List Value :=
  (Lexis.linkList (es.getD "etymology")).items?.getD []

def derivatives (es : Entries) : List Value :=
  (es.getD "derivatives").items?.getD []

end Entries

/-- What stands for names of transforms: a value itself, the members of a list, the keys of a mapping, or the numbers
of bytes. -/
def Value.transformReferences : Value → List Value
  | .scalar (.bytes bs) => bs.map fun b => .int b.toNat
  | .scalar s => if s.isFalsy then [] else [.scalar s]
  | .list items => items
  | .mapping entries => entries.map fun e => .scalar e.1

theorem Value.written?_byte (b : UInt8) : (Value.int b.toNat).written? = some (toString b.toNat) := by
  have short : (toString b.toNat).length ≤ 3 :=
    (Text.length_numeral_le_iff (by decide)).mpr (Nat.lt_of_lt_of_le b.toNat_lt (by decide))
  exact if_pos (Nat.le_trans short (by decide))

theorem Lexis.mem_transformNames {v : Value} {names : List String} (read : transformNames v = some names) :
    ∀ name ∈ names, ∃ r ∈ v.transformReferences, r.written? = some name := by
  unfold transformNames at read
  split at read
  · next s =>
    obtain rfl := Option.some.inj read
    cases empty : s.isEmpty <;> simp [Value.transformReferences, Scalar.isFalsy, empty, Value.written?, Scalar.written?]
  · next bs =>
    obtain rfl := Option.some.inj read
    intro name member
    obtain ⟨b, among, rfl⟩ := List.mem_map.mp member
    exact ⟨.int b.toNat, List.mem_map_of_mem among, Value.written?_byte b⟩
  · next items =>
    intro name member
    exact exists_of_mem_mapM read member
  · next entries =>
    intro name member
    obtain ⟨e, among, told⟩ := exists_of_mem_mapM read member
    exact ⟨.scalar e.1, List.mem_map_of_mem among, told⟩
  · split at read
    · cases read
      exact List.forall_mem_nil _
    · cases read

/-- A derivative is one of some, or derives from one of them. -/
inductive Derived : List Value → Entries → Prop
  | here {items d} : .mapping d ∈ items → Derived items d
  | inner {items d fields e} : .mapping d ∈ items → (Entries.getD d "lexis").entries? = some fields →
      Derived (Entries.derivatives fields) e → Derived items e

theorem Derived.mono {items more : List Value} {d : Entries} (derived : Derived items d)
    (within : ∀ v ∈ items, v ∈ more) : Derived more d := by
  cases derived with
  | here member => exact .here (within _ member)
  | inner member reads below => exact .inner (within _ member) reads below

/-- Every reference of a document is the same scalar as the key that declares what it refers to. Derivatives are
linked to their parents whatever they say, and no word of theirs is left to phonetic rules. -/
structure Spelled (doc : Entries) : Prop where
  etymons : ∀ key entries, (key, Value.mapping entries) ∈ doc.under "words" → ∀ link,
    Value.mapping link ∈ Entries.links entries → (Entries.getD link "etymon").IsKeyOf (doc.under "words")
  transforms : ∀ key entries, (key, Value.mapping entries) ∈ doc.under "words" → ∀ link,
    Value.mapping link ∈ Entries.links entries → ∀ r ∈ (Entries.getD link "transforms").transformReferences,
      r.IsKeyOf (doc.under "transforms")
  derived : ∀ key entries, (key, Value.mapping entries) ∈ doc.under "words" → ∀ d,
    Derived (Entries.derivatives entries) d → ∀ r ∈ (d.getD "transforms").transformReferences,
      r.IsKeyOf (doc.under "transforms")
  keys : ∀ key entries, (key, Value.mapping entries) ∈ doc.under "words" →
    (Entries.getD entries "generate").isFalsy = true ∨
      (Entries.getD entries "generate").IsKeyOf ((doc.under "phonetics").under "lexis_types")

section Tables

variable {ε α : Type} {es : Entries}

/-- A table that takes an entry for each of some has their keys, by their texts, beside those it had. -/
theorem contains_of_puts {step : Table α → Scalar × Value → Except ε (Table α)}
    (puts : ∀ {t e u}, step t e = .ok u → ∃ name a, e.1.written? = some name ∧ u = t.put name a) {t u : Table α}
    (run : es.foldlM step t = .ok u) :
    (∀ name, t.contains name = true → u.contains name = true) ∧
      ∀ e ∈ es, ∃ name, e.1.written? = some name ∧ u.contains name = true := by
  induction es generalizing t with
  | nil =>
    cases run
    exact ⟨fun _ => id, List.forall_mem_nil _⟩
  | cons e es ih =>
    rw [List.foldlM_cons] at run
    obtain ⟨s, here, later⟩ := bind_eq_ok.mp run
    obtain ⟨name, a, told, rfl⟩ := puts here
    obtain ⟨kept, each⟩ := ih later
    refine ⟨fun other known => kept other ?_, List.forall_mem_cons.mpr ⟨⟨name, told, kept name ?_⟩, each⟩⟩
    · rw [Table.contains_put, known, Bool.or_true]
    · rw [Table.contains_put, beq_self_eq_true, Bool.true_or]

theorem Assembly.withTransform_puts {t u : Table Transform} {e : Scalar × Value} (step : withTransform t e = .ok u) :
    ∃ name transform, e.1.written? = some name ∧ u = t.put name transform := by
  unfold withTransform at step
  split at step
  · cases step
  · next name told =>
    obtain ⟨transform, -, rfl⟩ := map_eq_ok.mp step
    exact ⟨name, transform, told, rfl⟩

theorem Phonology.withAlternatives_puts {table : String} {t u : Table (List Pattern)} {e : Scalar × Value}
    (step : withAlternatives table t e = .ok u) :
    ∃ symbol alternatives, e.1.written? = some symbol ∧ u = t.put symbol alternatives := by
  obtain ⟨alternatives, -, step⟩ := bind_eq_ok.mp step
  obtain ⟨symbol, told, step⟩ := bind_eq_ok.mp step
  exact ⟨symbol, alternatives, Fault.orUnsuitable_eq_ok.mp told, (Except.ok.inj step).symm⟩

end Tables

/-- Where a lexis of a document comes from: the entry of a word, or a derivative, which is linked to its parent. -/
inductive ComesFrom (words : Entries) (ids : List String) (x : Lexis) : Prop
  | word {key : Scalar} {id entries} : (key, Value.mapping entries) ∈ words → key.written? = some id →
      Lexis.ofEntries id entries = .ok x → ComesFrom words ids x
  | derivative {key entries d names parent} : (key, Value.mapping entries) ∈ words →
      Derived (Entries.derivatives entries) d → Lexis.transformNames (d.getD "transforms") = some names →
      x.etymons = [{ ancestor := parent, transforms := names, order := 0 }] → parent ∈ ids → ComesFrom words ids x

theorem ComesFrom.mono {words more : Entries} {ids names : List String} {x : Lexis} (origin : ComesFrom words ids x)
    (within : ∀ e ∈ words, e ∈ more) (known : ∀ id ∈ ids, id ∈ names) : ComesFrom more names x := by
  cases origin with
  | word member told read => exact .word (within _ member) told read
  | derivative member derived named linked parent =>
    exact .derivative (within _ member) derived named linked (known _ parent)

/-- All that derives from a parent comes from derivatives, and is linked to the parent or to what derives from it. -/
theorem Flattened.derived {parent : String} {index : Nat} {items : List Value} {xs : List Lexis}
    (flat : Flattened parent index items xs) : ∀ x ∈ xs, ∃ d names ancestor, Derived items d ∧
      Lexis.transformNames (Entries.getD d "transforms") = some names ∧
      x.etymons = [{ ancestor := ancestor, transforms := names, order := 0 }] ∧
      ancestor ∈ parent :: xs.map Lexis.id := by
  induction flat with
  | nil => exact nofun
  | @cons parent index derivative fields x items rest xs ys head list _ _ inner later =>
    intro y member
    rcases List.mem_append.mp member with here | there
    · rcases List.mem_cons.mp here with rfl | below
      · obtain ⟨-, names, -, named, rfl⟩ := head.linked
        exact ⟨derivative, names, parent, .here List.mem_cons_self, named, rfl, List.mem_cons_self⟩
      · obtain ⟨d, names, ancestor, derived, named, linked, among⟩ := inner y below
        have within : Entries.derivatives fields = items := by rw [Entries.derivatives, list, Option.getD_some]
        refine ⟨d, names, ancestor, .inner List.mem_cons_self head.reads (within ▸ derived), named, linked, ?_⟩
        refine List.mem_cons_of_mem _ ?_
        rw [List.map_append, List.map_cons]
        exact List.mem_append_left _ among
    · obtain ⟨d, names, ancestor, derived, named, linked, among⟩ := later y there
      refine ⟨d, names, ancestor, derived.mono fun v => List.mem_cons_of_mem _, named, linked, ?_⟩
      rw [List.map_append]
      exact List.cons_subset_cons parent (List.subset_append_right _ _) among

section Words

variable {es : Entries} {trees : List (List Lexis)}

theorem comesFrom_of_mem (flat : List.Forall₂ Flattens es trees) :
    ∀ x ∈ trees.flatten, ComesFrom es (trees.flatten.map Lexis.id) x := by
  induction flat with
  | nil => exact nofun
  | @cons e tree es trees first _ ih =>
    rw [List.flatten_cons, List.map_append]
    intro x member
    rcases List.mem_append.mp member with here | there
    · have alone : ComesFrom [e] (tree.map Lexis.id) x := by
        obtain @⟨key, id, entries, root, items, xs, told, read, list, below⟩ := first
        have entry := List.mem_singleton_self (key, Value.mapping entries)
        rcases List.mem_cons.mp here with rfl | deeper
        · exact .word entry told read
        · obtain ⟨d, names, ancestor, derived, named, linked, among⟩ := below.derived x deeper
          have within : Entries.derivatives entries = items := by rw [Entries.derivatives, list, Option.getD_some]
          exact .derivative entry (within ▸ derived) named linked among
      exact alone.mono (by simp) fun _ => List.mem_append_left _
    · exact (ih x there).mono (fun _ => List.mem_cons_of_mem e) fun _ => List.mem_append_right _

/-- Each entry declares the word that its key is the text of. -/
theorem mem_ids_of_key (flat : List.Forall₂ Flattens es trees) :
    ∀ e ∈ es, ∃ id, e.1.written? = some id ∧ id ∈ trees.flatten.map Lexis.id := by
  induction flat with
  | nil => exact List.forall_mem_nil _
  | @cons e tree es trees first _ ih =>
    rw [List.forall_mem_cons, List.flatten_cons, List.map_append]
    constructor
    · obtain ⟨told, read, -, -⟩ := first
      exact ⟨_, told, List.mem_append_left _ (List.mem_cons.mpr (.inl (Lexis.id_of_ofEntries read).symm))⟩
    · intro f member
      obtain ⟨id, told, among⟩ := ih f member
      exact ⟨id, told, List.mem_append_right _ among⟩

end Words

/-- What holds of the text of every key holds of the text of every reference. -/
theorem Value.IsKeyOf.written {v : Value} {es : Entries} {P : String → Prop} (key : v.IsKeyOf es)
    (declared : ∀ e ∈ es, ∃ name, e.1.written? = some name ∧ P name) {name : String} (told : v.written? = some name) :
    P name := by
  obtain ⟨e, member, rfl, -⟩ := key
  obtain ⟨same, told', holds⟩ := declared e member
  obtain rfl := Option.some.inj (told.symm.trans told')
  exact holds

namespace Assembly

variable {doc : Entries} {b : Assembly}

theorem contains_of_transforms (accepted : ({} : Assembly).addDocument doc = (b, .ok ())) :
    ∀ e ∈ doc.under "transforms", ∃ name, e.1.written? = some name ∧ b.transforms.contains name = true := by
  obtain ⟨es, read, run⟩ := (addDocument_eq_ok.mp accepted).transforms
  rw [Entries.under, read, Option.getD_some]
  exact (contains_of_puts withTransform_puts run).2

theorem contains_of_lexisTypes (accepted : ({} : Assembly).addDocument doc = (b, .ok ())) :
    ∀ e ∈ (doc.under "phonetics").under "lexis_types", ∃ name, e.1.written? = some name ∧
      ∃ p, b.phonology = some p ∧ p.lexisTypes.contains name = true := by
  have reads := (addDocument_eq_ok.mp accepted).phonology
  intro e member
  generalize given : doc.getD "phonetics" = v at reads
  generalize b.phonology = phonology at reads
  rw [Entries.under, Entries.under, given] at member
  cases reads with
  | absent => cases member
  | @mapping es q _ read =>
    obtain ⟨groups, -, rest⟩ := bind_eq_ok.mp read
    obtain ⟨types, table, same⟩ := bind_eq_ok.mp rest
    cases same
    rw [tableOf_eq] at table
    change e ∈ ((Entries.getD es "lexis_types").section?).getD [] at member
    cases list : (Entries.getD es "lexis_types").section? with
    | none =>
      rw [list] at table
      cases table
    | some entries =>
      rw [list] at table member
      rw [Option.elim_some, Phonology.tableOfEntries_eq_foldlM] at table
      obtain ⟨name, told, known⟩ := (contains_of_puts Phonology.withAlternatives_puts table).2 e member
      refine ⟨name, told, _, rfl, ?_⟩
      simpa only [Phonology.merge, Option.getD_none, Table.empty_putAll] using known

/-- Every lexis of a document that is accepted comes from a word of it, and every word declares a lexis. -/
theorem comesFrom_of_accepted (accepted : ({} : Assembly).addDocument doc = (b, .ok ())) :
    (∀ x ∈ b.graph.nodes, ComesFrom (doc.under "words") b.graph.ids x) ∧
      ∀ e ∈ doc.under "words", ∃ id, e.1.written? = some id ∧ id ∈ b.graph.ids := by
  have complete : (({} : Assembly).addDocument doc).2 = .ok () := by rw [accepted]
  obtain ⟨es, trees, read, flat⟩ := exists_flattens complete
  have nodes : b.graph.nodes = trees.flatten := nodes_of_addDocument read flat accepted
  rw [Entries.under, read, Option.getD_some, Graph.ids, nodes]
  exact ⟨comesFrom_of_mem flat, mem_ids_of_key flat⟩

section Spelled

variable (accepted : ({} : Assembly).addDocument doc = (b, .ok ())) (spelled : Spelled doc)
include accepted spelled

/-- Each link finds its ancestor and its transforms: those of words by their spelling, those of derivatives because
parents are added before what derives from them. -/
theorem linked_of_spelled : b.graph.Closed ∧
    ∀ x ∈ b.graph.nodes, ∀ e ∈ x.etymons, ∀ name ∈ e.transforms, b.transforms.contains name = true := by
  obtain ⟨origins, words⟩ := comesFrom_of_accepted accepted
  have transforms := contains_of_transforms accepted
  have each : ∀ x ∈ b.graph.nodes, ∀ e ∈ x.etymons,
      e.ancestor ∈ b.graph.ids ∧ ∀ name ∈ e.transforms, b.transforms.contains name = true := by
    intro x member e link
    cases origins x member with
    | @word key id entries entry _ read =>
      obtain ⟨links, list, v, among, number, said⟩ := Lexis.mem_etymonsOf (Lexis.of_ofEntries read).2.2 e link
      obtain ⟨edge, rfl, ancestor, named⟩ := Lexis.of_etymonOf said
      have inside : Value.mapping edge ∈ Entries.links entries := by
        rw [Entries.links, list]
        exact among
      refine ⟨(spelled.etymons _ _ entry edge inside).written words ancestor, fun name used => ?_⟩
      obtain ⟨r, reference, told⟩ := Lexis.mem_transformNames named name used
      exact (spelled.transforms _ _ entry edge inside r reference).written transforms told
    | derivative entry derived named linked parent =>
      rw [linked] at link
      obtain rfl := List.mem_singleton.mp link
      refine ⟨parent, fun name used => ?_⟩
      obtain ⟨r, reference, told⟩ := Lexis.mem_transformNames named name used
      exact (spelled.derived _ _ entry _ derived r reference).written transforms told
  exact ⟨fun x member e link => (each x member e link).1, fun x member e link => (each x member e link).2⟩

/-- A word that is left to phonetic rules has a scalar for its key, whose text is the name of a type. -/
theorem declared_of_spelled {x : Lexis} (member : x ∈ b.graph.nodes) (left : x.isGenerated = true) :
    ∃ s name p, x.generate = .scalar s ∧ s.written? = some name ∧ b.phonology = some p ∧
      p.lexisTypes.contains name = true := by
  obtain ⟨-, present, unlinked⟩ := Lexis.of_isGenerated left
  cases (comesFrom_of_accepted accepted).1 x member with
  | word entry _ read =>
    have key := (Lexis.of_ofEntries read).2.1
    rcases spelled.keys _ _ entry with absent | ⟨e, declared, same, -⟩
    · rw [← key, present] at absent
      cases absent
    · obtain ⟨name, told, p, phonology, known⟩ := contains_of_lexisTypes accepted e declared
      exact ⟨e.1, name, p, key.trans same, told, phonology, known⟩
  | derivative _ _ _ linked _ =>
    rw [linked] at unlinked
    cases unlinked

/-- Types are known by texts, so of these keys exactly those that are no texts are not declared. -/
theorem keyDeclared_of_spelled {x : Lexis} (member : x ∈ b.graph.nodes) (left : x.isGenerated = true) :
    Graph.keyDeclared b.phonology x.generate = .ok false ↔ ∀ s, x.generate ≠ .text s := by
  obtain ⟨s, name, p, key, told, phonology, known⟩ := declared_of_spelled accepted spelled member left
  rw [key, phonology]
  cases s with
  | text t =>
    obtain rfl := Option.some.inj told
    simpa [Graph.keyDeclared, Value.text] using known
  | _ => simp [Graph.keyDeclared, Value.text]

theorem told_of_spelled {x : Lexis} (member : x ∈ b.graph.nodes) (left : x.isGenerated = true) :
    ¬ x.generate.Untold := by
  obtain ⟨s, name, -, key, told, -⟩ := declared_of_spelled accepted spelled member left
  rw [key, ← Scalar.written?_eq_none_iff, told]
  exact nofun

/-- All findings can be told unless a key without effect has no text. -/
theorem exists_validate_of_spelled (scripts : Option ScriptRunner) :
    (∃ findings, validate b.graph b.transforms b.rules b.phonology scripts = .ok findings) ↔
      ∀ x ∈ b.graph.nodes, ¬ x.generate.Untold := by
  rw [exists_validate_iff, Graph.ignoredKeys_ok_iff]
  constructor
  · rintro ⟨ignored, -⟩ x member
    cases left : x.isGenerated with
    | true => exact told_of_spelled accepted spelled member left
    | false => exact ignored x member left
  · intro told
    refine ⟨fun x member _ => told x member, Graph.exists_undeclaredKeys b.phonology fun x member left => ?_⟩
    obtain ⟨s, -, -, key, -⟩ := declared_of_spelled accepted spelled member left
    exact ⟨⟨s, key⟩, told x member⟩

end Spelled

/-- A document in which every reference is spelled like what it refers to has findings, unless it gives a word a key
that is without effect and has no text. None of them is on an unknown ancestor or transform. Of the keys for phonetic
rules those that are no texts are found to be undeclared, and no others. -/
theorem validate_of_spelled (accepted : ({} : Assembly).addDocument doc = (b, .ok ())) (spelled : Spelled doc)
    (scripts : Option ScriptRunner) :
    ((∃ findings, validate b.graph b.transforms b.rules b.phonology scripts = .ok findings) ↔
      ∀ x ∈ b.graph.nodes, ¬ x.generate.Untold) ∧
    ∀ findings, validate b.graph b.transforms b.rules b.phonology scripts = .ok findings →
      (∀ f ∈ findings, f.rule ≠ "VAL-REF-001" ∧ f.rule ≠ "VAL-REF-002") ∧
      ∀ f, f ∈ findings ∧ f.rule = "VAL-PHO-001" ↔ ∃ x ∈ b.graph.nodes, x.isGenerated = true ∧
        (∀ s, x.generate ≠ .text s) ∧ f = .undeclaredKey x.id x.generate := by
  refine ⟨exists_validate_of_spelled accepted spelled scripts, fun findings checked => ?_⟩
  obtain ⟨closed, named⟩ := linked_of_spelled accepted spelled
  obtain ⟨_, keys, -, run, ruled⟩ := rule_of_validate checked
  simp only [Graph.missingAncestors_eq_nil_iff.mpr closed, Graph.missingTransforms,
    Graph.missingTransforms_of_named named, List.not_mem_nil, false_and, false_or] at ruled
  refine ⟨fun f member => ?_, fun f => ⟨?_, ?_⟩⟩
  · constructor
    · intro rule
      simpa [rule] using ruled f member
    · intro rule
      simpa [rule] using ruled f member
  · rintro ⟨member, rule⟩
    have key : f ∈ keys := by simpa [rule] using ruled f member
    obtain ⟨x, inside, left, undeclared, rfl⟩ := (Graph.mem_undeclaredKeys run).mp key
    exact ⟨x, inside, left, (keyDeclared_of_spelled accepted spelled inside left).mp undeclared, rfl⟩
  · rintro ⟨x, inside, left, odd, rfl⟩
    have undeclared := (keyDeclared_of_spelled accepted spelled inside left).mpr odd
    have key := (Graph.mem_undeclaredKeys run).mpr ⟨x, inside, left, undeclared, rfl⟩
    obtain ⟨_, again, -, same, members⟩ := mem_of_validate checked
    obtain rfl : keys = again := Except.ok.inj (run.symm.trans same)
    exact ⟨(members _).mpr (by simp only [key, true_or, or_true]), rfl⟩

/-- Two words, a transform and a type of words, numbered or named by a truth value, with references to match. -/
def ledger : Entries :=
  [(.text "words", .mapping [
      (.int 1, .mapping [
        (.text "generate", .int 7),
        (.text "derivatives", .list [.mapping [(.text "transforms", .list [.scalar (.bool true)])]])]),
      (.int 2, .mapping [(.text "etymology", .list [.mapping [
        (.text "etymon", .int 1), (.text "transforms", .list [.scalar (.bool true)])]])])]),
    (.text "transforms", .mapping [(.bool true, .list [.text "loanword"])]),
    (.text "phonetics", .mapping [(.text "lexis_types", .mapping [(.int 7, .text "ta")])])]

/-- What holds of the two entries of words holds of each. -/
theorem of_ledger_word {P : Entries → Prop}
    (first : P [(.text "generate", .int 7),
      (.text "derivatives", .list [.mapping [(.text "transforms", .list [.scalar (.bool true)])]])])
    (second : P [(.text "etymology", .list [.mapping [
      (.text "etymon", .int 1), (.text "transforms", .list [.scalar (.bool true)])]])])
    (key : Scalar) (entries : Entries) (member : (key, Value.mapping entries) ∈ ledger.under "words") : P entries := by
  rcases List.mem_cons.mp member with same | rest
  · cases same
    exact first
  · cases List.mem_singleton.mp rest
    exact second

theorem ledger_spelled : Spelled ledger := by
  have transform : ∀ r ∈ Value.transformReferences (.list [.scalar (.bool true)]),
      r.IsKeyOf (ledger.under "transforms") := by
    intro r member
    obtain rfl := List.mem_singleton.mp member
    exact ⟨_, List.mem_cons_self, rfl, rfl⟩
  constructor
  · refine of_ledger_word nofun fun link member => ?_
    cases List.mem_singleton.mp member
    exact ⟨_, List.mem_cons_self, rfl, rfl⟩
  · refine of_ledger_word nofun fun link member => ?_
    cases List.mem_singleton.mp member
    exact transform
  · refine of_ledger_word (fun d derived => ?_) fun d derived => ?_
    · cases derived with
      | here member =>
        cases List.mem_singleton.mp member
        exact transform
      | inner member reads below =>
        cases List.mem_singleton.mp member
        cases reads
        cases below with
        | here none => cases none
        | inner none => cases none
    · cases derived with
      | here none => cases none
      | inner none => cases none
  · refine of_ledger_word (.inr ⟨_, List.mem_cons_self, rfl, rfl⟩) (.inl rfl)

theorem ledger_accepted : (({} : Assembly).addDocument ledger).2 = .ok () := by
  decide +kernel

theorem ledger_findings : validate (({} : Assembly).addDocument ledger).1.graph
    (({} : Assembly).addDocument ledger).1.transforms (({} : Assembly).addDocument ledger).1.rules
    (({} : Assembly).addDocument ledger).1.phonology none = .ok [.undeclaredKey "1" (.int 7)] := by
  decide +kernel

/-- Of the keys of the ledger, the one that is left to phonetic rules is reported, and no link is. -/
theorem ledger_reported : Spelled ledger ∧ ∃ b findings, ({} : Assembly).addDocument ledger = (b, .ok ()) ∧
    validate b.graph b.transforms b.rules b.phonology none = .ok findings ∧
    (∀ x ∈ b.graph.nodes, ¬ x.generate.Untold) ∧
    (∃ f ∈ findings, f.rule = "VAL-PHO-001") ∧ ∀ f ∈ findings, f.rule ≠ "VAL-REF-001" ∧ f.rule ≠ "VAL-REF-002" := by
  obtain ⟨exist, each⟩ := validate_of_spelled (Prod.ext rfl ledger_accepted) ledger_spelled none
  obtain ⟨unrelated, keys⟩ := each _ ledger_findings
  have numbered : (({} : Assembly).addDocument ledger).1.graph.nodes.head? = some { id := "1", generate := .int 7 } := by
    decide +kernel
  have untold : ∀ s, Value.int 7 ≠ .text s := by simp [Value.int, Value.text]
  obtain ⟨member, rule⟩ := (keys (.undeclaredKey "1" (.int 7))).mpr
    ⟨_, List.mem_of_mem_head? numbered, rfl, untold, rfl⟩
  exact ⟨ledger_spelled, _, _, Prod.ext rfl ledger_accepted, ledger_findings, exist.mp ⟨_, ledger_findings⟩,
    ⟨_, member, rule⟩, unrelated⟩

/-- The number of a type is found to be no type, in a document that declares it and where all is spelled alike. -/
theorem ledger_unfaithful : Spelled ledger ∧ ∃ b, ({} : Assembly).addDocument ledger = (b, .ok ()) ∧
    validate b.graph b.transforms b.rules b.phonology none = .ok [.undeclaredKey "1" (.int 7)] ∧
      (Finding.undeclaredKey "1" (.int 7)).rule = "VAL-PHO-001" :=
  ⟨ledger_spelled, _, Prod.ext rfl ledger_accepted, ledger_findings, rfl⟩

end Assembly

end Etymology
