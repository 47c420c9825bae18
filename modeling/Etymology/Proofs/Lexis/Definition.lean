import Etymology.Assembly
import Etymology.Proofs.Control
import Etymology.Proofs.Document.Entries

namespace Etymology

theorem Entries.getEither_without {es : Entries} {gone key other : String} (first : key ≠ gone)
    (second : other ≠ gone) : (es.without gone).getEither key other = es.getEither key other := by
  rw [getEither, es.get?_without first, es.getD_without second, getEither]

namespace Lexis

section Reading

variable {id : String} {es : Entries}

theorem of_fieldsOf {x : Lexis} (read : fieldsOf id es = .ok x) :
    x.id = id ∧ x.generate = es.getD "generate" ∧ x.etymons = [] := by
  obtain ⟨_, -, read⟩ := bind_eq_ok.mp read
  obtain ⟨pos, -, read⟩ := bind_eq_ok.mp read
  obtain ⟨archaic, -, read⟩ := bind_eq_ok.mp read
  obtain ⟨word, -, read⟩ := bind_eq_ok.mp read
  obtain ⟨language, -, read⟩ := bind_eq_ok.mp read
  obtain ⟨kind, -, read⟩ := bind_eq_ok.mp read
  obtain ⟨definition, -, read⟩ := bind_eq_ok.mp read
  obtain ⟨tags, -, read⟩ := bind_eq_ok.mp read
  obtain ⟨history, -, read⟩ := bind_eq_ok.mp read
  cases read
  exact ⟨rfl, rfl, rfl⟩

/-- The id is given, the key for phonetic rules is taken as it stands, and the etymology says what a lexis is linked
to. -/
theorem of_ofEntries {x : Lexis} (read : ofEntries id es = .ok x) :
    x.id = id ∧ x.generate = es.getD "generate" ∧ etymonsOf id (es.getD "etymology") = .ok x.etymons := by
  obtain ⟨y, fields, read⟩ := bind_eq_ok.mp read
  obtain ⟨etymons, linked, read⟩ := bind_eq_ok.mp read
  cases read
  obtain ⟨named, keyed, -⟩ := of_fieldsOf fields
  exact ⟨named, keyed, linked⟩

theorem id_of_ofEntries {x : Lexis} (read : ofEntries id es = .ok x) : x.id = id :=
  (of_ofEntries read).1

theorem textsOf_without (id : String) (es : Entries) {gone key : String} (different : key ≠ gone) :
    textsOf id (es.without gone) key = textsOf id es key := by
  rw [textsOf, es.getD_without different, textsOf]

theorem archaicOf_without (id : String) (es : Entries) {gone : String} (different : "archaic" ≠ gone) :
    archaicOf id (es.without gone) = archaicOf id es := by
  rw [archaicOf, es.get?_without different, archaicOf]

/-- What an entry says of a lexis itself stands apart from the etymology. -/
theorem fieldsOf_without (id : String) (es : Entries) : fieldsOf id (es.without "etymology") = fieldsOf id es := by
  have kept : ∀ key ≠ "etymology", (es.without "etymology").getD key = es.getD key :=
    fun key other => es.getD_without other
  unfold fieldsOf
  simp only [kept _ (show "word" ≠ "etymology" by decide), kept _ (show "language" ≠ "etymology" by decide),
    kept _ (show "definition" ≠ "etymology" by decide), kept _ (show "generate" ≠ "etymology" by decide),
    es.getEither_without (show "part_of_speech" ≠ "etymology" by decide) (show "pos" ≠ "etymology" by decide),
    es.getEither_without (show "word_type" ≠ "etymology" by decide) (show "type" ≠ "etymology" by decide),
    archaicOf_without id es (show "archaic" ≠ "etymology" by decide),
    textsOf_without id es (show "tags" ≠ "etymology" by decide),
    textsOf_without id es (show "historical_metadata" ≠ "etymology" by decide)]

theorem ofEntries_without (id : String) (es : Entries) :
    ofEntries id (es.without "etymology") = fieldsOf id es := by
  rw [ofEntries, fieldsOf_without, es.getD_without_self]
  cases read : fieldsOf id es with
  | error fault => rfl
  | ok x =>
    obtain ⟨-, -, linked⟩ := of_fieldsOf read
    show Except.ok { x with etymons := [] } = .ok x
    rw [← linked]

/-- The etymology alone says what a lexis is linked to. -/
theorem ofEntries_eq (id : String) (es : Entries) :
    ofEntries id es = do
      let y ← ofEntries id (es.without "etymology")
      let etymons ← etymonsOf id (es.getD "etymology")
      return { y with etymons := etymons } := by
  rw [ofEntries_without, ofEntries]

end Reading

theorem transformNames_of_isFalsy {v : Value} (absent : v.isFalsy = true) : transformNames v = some [] := by
  unfold transformNames
  split
  · next s =>
    have empty : s.isEmpty = true := absent
    rw [if_pos empty]
  · next bs =>
    have empty : bs.isEmpty = true := absent
    rw [List.isEmpty_iff.mp empty]
    rfl
  · next items =>
    have empty : items.isEmpty = true := absent
    rw [List.isEmpty_iff.mp empty]
    rfl
  · next entries =>
    have empty : entries.isEmpty = true := absent
    rw [List.isEmpty_iff.mp empty]
    rfl
  · rw [if_pos absent]

theorem of_etymonOf {id : String} {number : Nat} {v : Value} {e : Etymon} (read : etymonOf id number v = .ok e) :
    ∃ edge : Entries, v = .mapping edge ∧ (edge.getD "etymon").written? = some e.ancestor ∧
      transformNames (edge.getD "transforms") = some e.transforms := by
  unfold etymonOf at read
  simp only at read
  split at read
  · next edge =>
    split at read
    · cases read
    · obtain ⟨order, -, read⟩ := bind_eq_ok.mp read
      obtain ⟨ancestor, named, read⟩ := bind_eq_ok.mp read
      obtain ⟨names, listed, read⟩ := bind_eq_ok.mp read
      cases read
      exact ⟨edge, rfl, Fault.orUnsuitable_eq_ok.mp named, Fault.orUnsuitable_eq_ok.mp listed⟩
  · cases read

theorem mem_etymonsFrom {id : String} {number : Nat} {vs : List Value} {es : List Etymon}
    (read : etymonsFrom id number vs = .ok es) : ∀ e ∈ es, ∃ v ∈ vs, ∃ n, etymonOf id n v = .ok e := by
  induction vs generalizing number es with
  | nil =>
    cases read
    exact nofun
  | cons v vs ih =>
    obtain ⟨first, here, read⟩ := bind_eq_ok.mp read
    obtain ⟨rest, later, read⟩ := bind_eq_ok.mp read
    cases read
    rw [List.forall_mem_cons]
    refine ⟨⟨v, List.mem_cons_self, number, here⟩, fun e member => ?_⟩
    obtain ⟨w, among, n, there⟩ := ih later e member
    exact ⟨w, List.mem_cons_of_mem v among, n, there⟩

/-- The list of links of an etymology, which may itself stand in a mapping. -/
def linkList : Value → Value
  | .mapping entries => Entries.getD entries "etymons"
  | v => v

/-- Each etymon that is read comes from a link of the etymology. -/
theorem mem_etymonsOf {id : String} {v : Value} {es : List Etymon} (read : etymonsOf id v = .ok es) :
    ∀ e ∈ es, ∃ links, linkList v = .list links ∧ ∃ link ∈ links, ∃ n, etymonOf id n link = .ok e := by
  unfold etymonsOf at read
  simp only at read
  split at read
  · cases read
    simp
  · next links => exact fun e member => ⟨links, rfl, mem_etymonsFrom read e member⟩
  · split at read
    · next links list => exact fun e member => ⟨links, list, mem_etymonsFrom read e member⟩
    · split at read
      · cases read
        simp
      · cases read
  · cases read

/-- A link without an order has order zero. Its ancestor must have an id that does not count as absent. -/
theorem etymonOf_unordered (id ancestor : String) (number : Nat) (transforms : Value) :
    etymonOf id number (.mapping [(.text "etymon", .text ancestor), (.text "transforms", transforms)]) =
      if ancestor.isEmpty then .error (.document (.entry id (.noAncestor number)))
      else (Fault.orUnsuitable (transformNames transforms)).map (⟨ancestor, ·, 0⟩) :=
  rfl

theorem etymonOf_unordered_eq_ok {id ancestor : String} {number : Nat} {transforms : Value} {e : Etymon} :
    etymonOf id number (.mapping [(.text "etymon", .text ancestor), (.text "transforms", transforms)]) = .ok e ↔
      ancestor ≠ "" ∧ ∃ names, transformNames transforms = some names ∧ ⟨ancestor, names, 0⟩ = e := by
  rw [etymonOf_unordered]
  by_cases empty : ancestor = ""
  · simp [empty]
  · rw [if_neg (by simpa using empty), map_eq_ok]
    simp only [Fault.orUnsuitable_eq_ok, ne_eq, empty, not_false_eq_true, true_and, eq_comm (a := e)]

/-- A derivative gets one link, to its parent. -/
theorem etymonsOf_derivativeEtymology {id parent : String} {transforms : Value} {etymons : List Etymon} :
    etymonsOf id (derivativeEtymology parent transforms) = .ok etymons ↔
      parent ≠ "" ∧ ∃ names, transformNames transforms = some names ∧ etymons = [⟨parent, names, 0⟩] := by
  have names : transformNames (if transforms.isFalsy then .list [] else transforms) = transformNames transforms := by
    split
    · next absent =>
      rw [transformNames_of_isFalsy absent]
      rfl
    · rfl
  have link : etymonsOf id (derivativeEtymology parent transforms) = (do
      let e ← etymonOf id 1 (.mapping [(.text "etymon", .text parent),
        (.text "transforms", if transforms.isFalsy then .list [] else transforms)])
      return [e]) := rfl
  rw [link, bind_eq_ok]
  simp only [etymonOf_unordered_eq_ok, names]
  constructor
  · rintro ⟨e, ⟨named, ns, read, rfl⟩, same⟩
    exact ⟨named, ns, read, (Except.ok.inj same).symm⟩
  · rintro ⟨named, ns, read, rfl⟩
    exact ⟨_, ⟨named, ns, read, rfl⟩, rfl⟩

end Lexis

end Etymology
