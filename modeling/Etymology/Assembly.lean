import Etymology.GlobalRule
import Etymology.Graph.Basic
import Etymology.Lexis.Definition
import Etymology.Phonology.Basic

namespace Etymology

structure Assembly where
  graph : Graph := {}
  transforms : Table Transform := {}
  rules : List GlobalRule := []
  phonology : Option Phonology := none
deriving Inhabited

namespace Value

mutual

/-- How many lists and mappings a value is made of. -/
def size : Value → Nat
  | .scalar _ => 0
  | .list items => sizeItems items + 1
  | .mapping entries => sizeEntries entries + 1

def sizeItems : List Value → Nat
  | [] => 0
  | v :: rest => v.size + sizeItems rest

def sizeEntries : List (Scalar × Value) → Nat
  | [] => 0
  | (_, v) :: rest => v.size + sizeEntries rest

end

theorem size_le_sizeEntries {e : Scalar × Value} {entries : List (Scalar × Value)}
    (member : e ∈ entries) : e.2.size ≤ sizeEntries entries := by
  induction entries with
  | nil => simp at member
  | cons w rest ih =>
    simp only [sizeEntries]
    rcases List.mem_cons.1 member with rfl | later
    · omega
    · have := ih later
      omega

theorem size_getD_le (entries : Entries) (key : String) :
    (entries.getD key).size ≤ sizeEntries entries := by
  unfold Entries.getD Entries.get?
  cases found : entries.find? fun e => e.1 == .text key with
  | none => simp [size]
  | some e => exact size_le_sizeEntries (List.mem_of_find?_eq_some found)

/-- One member of a list of pairs: a list of two, a text of two characters, two bytes, or the two
keys of a mapping. -/
def pair? : Value → Option (Scalar × Value)
  | .list [.scalar k, v] => some (k, v)
  | .scalar (.bytes [a, b]) => some (.int a.toNat, .int b.toNat)
  | .scalar (.text s) => match s.toList with
    | [a, b] => some (.text (String.singleton a), .text (String.singleton b))
    | _ => none
  | .mapping [(a, _), (b, _)] => some (a, .scalar b)
  | _ => none

def pairs? : List Value → Option (List (Scalar × Value))
  | [] => some []
  | v :: rest => match pair? v, pairs? rest with
    | some e, some es => some (e :: es)
    | _, _ => none

/-- The entries of a value that is to be read as a mapping: of a mapping its own, of a list its
pairs, and none where the value counts as absent. -/
def entries? : Value → Option Entries
  | .mapping entries => some entries
  | .list items => (pairs? items).map Entries.ofList
  | v => if v.isFalsy then some [] else none

theorem size_of_pair? {v : Value} {e : Scalar × Value} (read : pair? v = some e) : e.2.size ≤ v.size := by
  unfold pair? at read
  split at read
  · cases read
    simp only [size, sizeItems]
    omega
  · cases read
    simp [size, int]
  · split at read <;> cases read
    simp [size, text]
  · cases read
    simp [size]
  · cases read

theorem size_of_mem_pairs? {items : List Value} {es : List (Scalar × Value)} {e : Scalar × Value}
    (read : pairs? items = some es) (member : e ∈ es) : e.2.size ≤ sizeItems items := by
  induction items generalizing es with
  | nil =>
    cases read
    simp at member
  | cons v rest ih =>
    unfold pairs? at read
    split at read
    · next here there =>
      cases read
      simp only [sizeItems]
      rcases List.mem_cons.1 member with rfl | later
      · have := size_of_pair? here
        omega
      · have := ih there later
        omega
    · cases read

end Value

theorem Entries.mem_put {es : Entries} {k : Scalar} {v : Value} {e : Scalar × Value}
    (member : e ∈ es.put k v) : e ∈ es ∨ e.2 = v := by
  unfold Entries.put at member
  split at member
  · obtain ⟨d, old, same⟩ := List.mem_map.1 member
    split at same
    · exact Or.inr (same ▸ rfl)
    · exact Or.inl (same ▸ old)
  · rcases List.mem_append.1 member with old | new
    · exact Or.inl old
    · exact Or.inr (by rw [List.mem_singleton.1 new])

theorem Entries.mem_ofList {es : List (Scalar × Value)} {e : Scalar × Value}
    (member : e ∈ Entries.ofList es) : ∃ d ∈ es, e.2 = d.2 := by
  have general : ∀ (es : List (Scalar × Value)) (done : Entries),
      e ∈ es.foldl (fun done e => done.put e.1 e.2) done → e ∈ done ∨ ∃ d ∈ es, e.2 = d.2 := by
    intro es
    induction es with
    | nil => exact fun _ => Or.inl
    | cons d es ih =>
      intro done member
      rcases ih _ member with here | ⟨d', later, same⟩
      · rcases Entries.mem_put here with old | same
        · exact Or.inl old
        · exact Or.inr ⟨d, List.mem_cons_self, same⟩
      · exact Or.inr ⟨d', List.mem_cons_of_mem _ later, same⟩
  rcases general es [] member with none | found
  · simp at none
  · exact found

theorem Value.size_of_entries? {v : Value} {es : Entries} (read : v.entries? = some es) (key : String) :
    (es.getD key).size ≤ v.size := by
  unfold Entries.getD Entries.get?
  cases found : es.find? fun e => e.1 == .text key with
  | none => simp [Value.size]
  | some e =>
    have member := List.mem_of_find?_eq_some found
    show e.2.size ≤ v.size
    unfold Value.entries? at read
    split at read
    · cases read
      have := Value.size_le_sizeEntries member
      simp only [Value.size]
      omega
    · obtain ⟨ps, pairs, rfl⟩ := Option.map_eq_some_iff.1 read
      obtain ⟨d, old, same⟩ := Entries.mem_ofList member
      have := Value.size_of_mem_pairs? pairs old
      simp only [Value.size, same]
      omega
    · split at read <;> cases read
      simp at member

/-- The one link of a derivative, as a document would write it. -/
def derivativeEtymology (parent : String) (transforms : Value) : Value :=
  .mapping [(.text "etymons", .list [.mapping [
    (.text "etymon", .text parent),
    (.text "transforms", if transforms.isFalsy then .list [] else transforms)]])]

def derivativeId (parent : String) (index : Nat) : String :=
  parent ++ "-autoderive-" ++ toString index

namespace Graph

/-- Adds the lexis that the entries describe. -/
def addEntry (g : Graph) (id : String) (entries : Entries) : Except Fault Graph :=
  match Lexis.ofEntries id entries with
  | .error fault => .error fault
  | .ok x => if g.contains id then .error (.duplicate (.entry id)) else g.add x

mutual

/-- Adds a lexis and, each with all that derives from it, its derivatives. What was added before a
mistake stays. -/
def addTree (g : Graph) (id : String) (entries : Entries) (derivatives : Value) :
    Graph × Except Fault Unit :=
  match g.addEntry id entries with
  | .error fault => (g, .error fault)
  | .ok g => match derivatives with
    | .list items => addDerivatives g id 0 items
    | v => if v.isFalsy then (g, .ok ()) else (g, .error (.document (.entry id (.notList "derivatives"))))
termination_by derivatives.size
decreasing_by
  simp only [Value.size]
  omega

/-- Whatever etymology a derivative names for itself gives way to the link to its parent. -/
def addDerivatives (g : Graph) (parent : String) (index : Nat) : List Value → Graph × Except Fault Unit
  | [] => (g, .ok ())
  | .mapping derivative :: rest =>
    match _read : (Entries.getD derivative "lexis").entries? with
    | none => (g, .error .unsuitable)
    | some entries =>
      let etymology := derivativeEtymology parent (Entries.getD derivative "transforms")
      match addTree g (derivativeId parent index) (entries.put (.text "etymology") etymology)
          (entries.getD "derivatives") with
      | (g, .error fault) => (g, .error fault)
      | (g, .ok ()) => addDerivatives g parent (index + 1) rest
  | _ :: _ => (g, .error (.document (.entry parent (.derivativeNotMapping (index + 1)))))
termination_by items => Value.sizeItems items
decreasing_by
  · have := Value.size_of_entries? _read "derivatives"
    have := Value.size_getD_le derivative "lexis"
    simp only [Value.sizeItems, Value.size]
    omega
  · simp only [Value.sizeItems, Value.size]
    omega

end

def addWord (g : Graph) (id : String) (v : Value) : Graph × Except Fault Unit :=
  match v with
  | .mapping entries => g.addTree id entries (Entries.getD entries "derivatives")
  | _ => (g, .error (.document (.entry id .notMapping)))

def addWords : List (Scalar × Value) → Graph → Graph × Except Fault Unit
  | [], g => (g, .ok ())
  | (key, v) :: rest, g => match key.written? with
    | none => (g, .error .unsuitable)
    | some id => match g.addWord id v with
      | (g, .ok ()) => addWords rest g
      | (g, .error fault) => (g, .error fault)

end Graph

namespace Assembly

def addTransforms : List (Scalar × Value) → Assembly → Assembly × Except Fault Unit
  | [], a => (a, .ok ())
  | (key, v) :: rest, a => match key.written? with
    | none => (a, .error .unsuitable)
    | some name => match Transform.ofValue name v with
      | .ok t => addTransforms rest { a with transforms := a.transforms.put name t }
      | .error fault => (a, .error fault)

/-- Rules are numbered through all documents. -/
def addRules : List Value → Assembly → Assembly × Except Fault Unit
  | [], a => (a, .ok ())
  | v :: rest, a => match GlobalRule.ofValue v a.rules.length with
    | .ok r => addRules rest { a with rules := a.rules ++ [r] }
    | .error fault => (a, .error fault)

def addPhonology (q : Phonology) (a : Assembly) : Assembly :=
  match a.phonology with
  | none => { a with phonology := some q }
  | some p => { a with phonology := some (p.merge q) }

def addTransformSection (v : Value) (a : Assembly) : Assembly × Except Fault Unit :=
  match v with
  | .mapping entries => addTransforms entries a
  | v => if v.isFalsy then (a, .ok ()) else (a, .error (.document (.sectionNotMapping "transforms")))

/-- The rules may stand by themselves or in a mapping under `transforms`. -/
def addRuleSection (v : Value) (a : Assembly) : Assembly × Except Fault Unit :=
  let inner := match v with
    | .mapping entries => Entries.getD entries "transforms"
    | v => v
  match inner with
  | .list items => addRules items a
  | v => if v.isFalsy then (a, .ok ()) else (a, .error (.document (.sectionNotList "globals")))

def addPhoneticSection (v : Value) (a : Assembly) : Assembly × Except Fault Unit :=
  match v with
  | .scalar .null => (a, .ok ())
  | .mapping entries => match Phonology.ofEntries entries with
    | .ok q => (addPhonology q a, .ok ())
    | .error fault => (a, .error fault)
  | _ => (a, .error (.document (.sectionNotMapping "phonetics")))

def addWordSection (v : Value) (a : Assembly) : Assembly × Except Fault Unit :=
  match v with
  | .mapping entries => match Graph.addWords entries a.graph with
    | (graph, outcome) => ({ a with graph := graph }, outcome)
  | v => if v.isFalsy then (a, .ok ()) else (a, .error (.document (.sectionNotMapping "words")))

def sections : List String :=
  ["words", "transforms", "globals", "phonetics"]

/-- Refuses a document with sections that are not known. -/
def checkSections (doc : Entries) : Except Fault Unit := do
  let unknown := (doc.map (·.1)).filter fun k => !(sections.map Scalar.text).contains k
  if unknown.isEmpty then return ()
  else .error (.document (.unknownSections (← GlobalRule.sortedKeys unknown)))

/-- Goes on unless there has been a mistake. -/
def andThen (step : Assembly → Assembly × Except Fault Unit) :
    Assembly × Except Fault Unit → Assembly × Except Fault Unit
  | (a, .ok ()) => step a
  | (a, .error fault) => (a, .error fault)

/-- Adds a document, section by section. After a mistake the assembly holds what came before it. -/
def addDocument (a : Assembly) (doc : Entries) : Assembly × Except Fault Unit :=
  andThen (addWordSection (doc.getD "words"))
    (andThen (addPhoneticSection (doc.getD "phonetics"))
      (andThen (addRuleSection (doc.getD "globals"))
        (andThen (addTransformSection (doc.getD "transforms")) (a, checkSections doc))))

end Assembly

end Etymology
