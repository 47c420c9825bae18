import Etymology.Proofs.Assembly.Words
import Etymology.Proofs.Lexis.Escape

namespace Etymology

/-- The faults that a document may be refused with. -/
inductive Reported : Fault → Prop
  | refused {fault} : Refused fault → Reported fault
  | duplicate (what : Duplicate) : Reported (.duplicate what)

theorem Escapes.reported {α : Type} {fault : Fault} {bare : Prop} (told : Reported fault) (never : ¬ bare) :
    Escapes Reported (.error fault : Except Fault α) bare := by
  refine .fault told ?_ never
  rintro rfl
  cases told with
  | refused refused => cases refused

/-- What is read in place of a derivative. -/
def derivativeEntry (parent : String) (derivative fields : Entries) : Entries :=
  fields.put (.text "etymology") (derivativeEtymology parent (derivative.getD "transforms"))

/-- A derivative has a field that has no text, or its fields can be read and it is linked to its parent by transforms
that name nothing. -/
theorem isUnsuitable_derivativeEntry {id parent : String} {derivative fields : Entries} :
    Lexis.IsUnsuitable id (derivativeEntry parent derivative fields) ↔
      Lexis.Checked id fields ∧ Lexis.UntoldField id fields ∨
        (∃ x, Lexis.fieldsOf id fields = .ok x) ∧ parent ≠ "" ∧ Lexis.NamesNothing (derivative.getD "transforms") := by
  have etymology : (derivativeEntry parent derivative fields).getD "etymology" =
      derivativeEtymology parent (derivative.getD "transforms") := by
    rw [Entries.getD, derivativeEntry, Entries.get?_put_self]
    rfl
  rw [Lexis.IsUnsuitable, etymology, Lexis.reachesNameless_derivativeEtymology, derivativeEntry,
    Lexis.untoldField_put, Lexis.fieldsOf_put]

namespace Graph

theorem addEntry_escapes (g : Graph) (id : String) (entries : Entries) :
    Escapes Reported (g.addEntry id entries) (Lexis.IsUnsuitable id entries) := by
  have reads := (Lexis.ofEntries_escapes id entries).mono fun _ => Reported.refused
  unfold addEntry
  split
  · next failed => exact reads.error failed
  · next x read =>
    have never := reads.not_of_ok read
    split
    · exact .reported (.duplicate _) never
    · unfold add
      split
      · exact .reported (.duplicate _) never
      · exact (Escapes.ok _).congr (iff_of_false not_false never)

/-- Of all that derives from a parent something is reached that is not as expected: the fields of a derivative are
nothing that can be read as a mapping, or one of them has no text, or its transforms name nothing. -/
inductive ReachesDerivative : Graph → String → Nat → List Value → Prop
  | fields {g parent index derivative rest} : (Entries.getD derivative "lexis").entries? = none →
      ReachesDerivative g parent index (.mapping derivative :: rest)
  | field {g parent index derivative fields rest} : (Entries.getD derivative "lexis").entries? = some fields →
      Lexis.Checked (derivativeId parent index) fields → Lexis.UntoldField (derivativeId parent index) fields →
      ReachesDerivative g parent index (.mapping derivative :: rest)
  | transforms {g parent index derivative fields x rest} :
      (Entries.getD derivative "lexis").entries? = some fields →
      Lexis.fieldsOf (derivativeId parent index) fields = .ok x → parent ≠ "" →
      Lexis.NamesNothing (Entries.getD derivative "transforms") →
      ReachesDerivative g parent index (.mapping derivative :: rest)
  | inner {g parent index derivative fields rest h items} : (Entries.getD derivative "lexis").entries? = some fields →
      g.addEntry (derivativeId parent index) (derivativeEntry parent derivative fields) = .ok h →
      fields.getD "derivatives" = .list items → ReachesDerivative h (derivativeId parent index) 0 items →
      ReachesDerivative g parent index (.mapping derivative :: rest)
  | later {g parent index derivative fields rest h} : (Entries.getD derivative "lexis").entries? = some fields →
      g.addTree (derivativeId parent index) (derivativeEntry parent derivative fields) (fields.getD "derivatives") =
        (h, .ok ()) →
      ReachesDerivative h parent (index + 1) rest → ReachesDerivative g parent index (.mapping derivative :: rest)

/-- An entry is not as expected, or it is added and one of its derivatives is not. -/
def ReachesInTree (g : Graph) (id : String) (entries : Entries) (derivatives : Value) : Prop :=
  Lexis.IsUnsuitable id entries ∨
    ∃ h items, g.addEntry id entries = .ok h ∧ derivatives = .list items ∧ ReachesDerivative h id 0 items

variable {g : Graph} {id parent : String} {entries derivative fields : Entries} {index : Nat} {rest : List Value}
  {derivatives : Value}

theorem reachesDerivative_cons (reads : (derivative.getD "lexis").entries? = some fields) :
    ReachesDerivative g parent index (.mapping derivative :: rest) ↔
      g.ReachesInTree (derivativeId parent index) (derivativeEntry parent derivative fields)
        (fields.getD "derivatives") ∨
      ∃ h, g.addTree (derivativeId parent index) (derivativeEntry parent derivative fields)
          (fields.getD "derivatives") = (h, .ok ()) ∧ ReachesDerivative h parent (index + 1) rest := by
  constructor
  · intro reaches
    cases reaches with
    | fields unread =>
      rw [reads] at unread
      cases unread
    | field read checked untold =>
      obtain rfl := Option.some.inj (reads.symm.trans read)
      exact .inl (.inl (isUnsuitable_derivativeEntry.mpr (.inl ⟨checked, untold⟩)))
    | transforms read described named nothing =>
      obtain rfl := Option.some.inj (reads.symm.trans read)
      exact .inl (.inl (isUnsuitable_derivativeEntry.mpr (.inr ⟨⟨_, described⟩, named, nothing⟩)))
    | inner read added list below =>
      obtain rfl := Option.some.inj (reads.symm.trans read)
      exact .inl (.inr ⟨_, _, added, list, below⟩)
    | later read added after =>
      obtain rfl := Option.some.inj (reads.symm.trans read)
      exact .inr ⟨_, added, after⟩
  · rintro ((odd | ⟨h, items, added, list, below⟩) | ⟨h, added, after⟩)
    · rcases isUnsuitable_derivativeEntry.mp odd with ⟨checked, untold⟩ | ⟨⟨x, described⟩, named, nothing⟩
      · exact .field reads checked untold
      · exact .transforms reads described named nothing
    · exact .inner reads added list below
    · exact .later reads added after

/-- A tree meets what its entry meets or, if this is added, what its derivatives meet. -/
theorem addTree_escapes_of (inner : ∀ h items, g.addEntry id entries = .ok h → derivatives = .list items →
      Escapes Reported (h.addDerivatives id 0 items).2 (ReachesDerivative h id 0 items)) :
    Escapes Reported (g.addTree id entries derivatives).2 (g.ReachesInTree id entries derivatives) := by
  have entry := g.addEntry_escapes id entries
  rw [addTree]
  cases added : g.addEntry id entries with
  | error fault => exact (entry.error added).congr (by simp [ReachesInTree, added])
  | ok h =>
    have never := entry.not_of_ok added
    simp only
    split
    · next items => exact (inner h items added rfl).congr (by simp [ReachesInTree, never, added])
    · next other =>
      have nowhere : ¬ g.ReachesInTree id entries derivatives := by
        rintro (odd | ⟨h, items, -, list, -⟩)
        · exact never odd
        · exact other items list
      split
      · exact (Escapes.ok ()).congr (iff_of_false not_false nowhere)
      · exact .reported (.refused (.document _)) nowhere

/-- A derivative meets what its tree meets and, if this is added, what the derivatives behind it meet. -/
theorem addDerivatives_cons_escapes (reads : (derivative.getD "lexis").entries? = some fields)
    (tree : Escapes Reported (g.addTree (derivativeId parent index) (derivativeEntry parent derivative fields)
        (fields.getD "derivatives")).2 (g.ReachesInTree (derivativeId parent index)
        (derivativeEntry parent derivative fields) (fields.getD "derivatives")))
    (later : ∀ h, g.addTree (derivativeId parent index) (derivativeEntry parent derivative fields)
        (fields.getD "derivatives") = (h, .ok ()) →
      Escapes Reported (h.addDerivatives parent (index + 1) rest).2 (ReachesDerivative h parent (index + 1) rest)) :
    Escapes Reported (g.addDerivatives parent index (.mapping derivative :: rest)).2
      (ReachesDerivative g parent index (.mapping derivative :: rest)) := by
  rw [addDerivatives_cons reads, reachesDerivative_cons reads, ← derivativeEntry]
  generalize g.addTree (derivativeId parent index) (derivativeEntry parent derivative fields)
    (fields.getD "derivatives") = r at tree later
  obtain ⟨h, outcome⟩ := r
  cases outcome with
  | error fault => exact tree.congr (by simp)
  | ok u =>
    have never := tree.not_of_ok rfl
    exact (later h rfl).congr (by simp [never])

/-- Derivatives are met with what is not as expected exactly where it is reached. -/
theorem addDerivatives_escapes (g : Graph) (parent : String) (index : Nat) (items : List Value) :
    Escapes Reported (g.addDerivatives parent index items).2 (ReachesDerivative g parent index items) := by
  -- Trees and lists of derivatives call each other, so both are followed at once.
  refine addDerivatives.induct
    (fun g id entries derivatives =>
      Escapes Reported (g.addTree id entries derivatives).2 (g.ReachesInTree id entries derivatives))
    (fun g parent index items =>
      Escapes Reported (g.addDerivatives parent index items).2 (ReachesDerivative g parent index items))
    ?badEntry ?list ?absent ?noList ?done ?badFields ?refused ?next ?noMapping g parent index items
  case badEntry =>
    intro g id entries derivatives fault refused
    refine addTree_escapes_of fun h items added _ => ?_
    rw [refused] at added
    cases added
  case list =>
    intro g id entries h added items ih
    refine addTree_escapes_of fun k items again list => ?_
    obtain rfl := Except.ok.inj (added.symm.trans again)
    cases list
    exact ih
  case absent =>
    intro g id entries h added v other falsy
    exact addTree_escapes_of fun k items _ list => (other items list).elim
  case noList =>
    intro g id entries h added v other truthy
    exact addTree_escapes_of fun k items _ list => (other items list).elim
  case done =>
    intro g parent index
    have nowhere : ¬ ReachesDerivative g parent index [] := by
      intro reaches
      cases reaches
    rw [addDerivatives]
    exact (Escapes.ok ()).congr (iff_of_false not_false nowhere)
  case badFields =>
    intro g parent index derivative rest unread
    rw [addDerivatives]
    split
    · exact .escaped (.fields unread)
    · next fields read =>
      rw [unread] at read
      cases read
  case refused =>
    intro g parent index derivative rest fields reads etymology h fault refused tree
    refine addDerivatives_cons_escapes reads tree fun k added => ?_
    cases refused.symm.trans added
  case next =>
    intro g parent index derivative rest fields reads etymology h added tree later
    refine addDerivatives_cons_escapes reads tree fun k again => ?_
    cases added.symm.trans again
    exact later
  case noMapping =>
    intro g parent index v rest other
    rw [addDerivatives]
    · refine .reported (.refused (.document _)) fun reaches => ?_
      cases reaches <;> exact other _ rfl
    · exact other

theorem addTree_escapes (g : Graph) (id : String) (entries : Entries) (derivatives : Value) :
    Escapes Reported (g.addTree id entries derivatives).2 (g.ReachesInTree id entries derivatives) :=
  addTree_escapes_of fun h items _ _ => h.addDerivatives_escapes id 0 items

/-- The key of a word has no text, or its entry has something in it that is reached and is not as expected. -/
inductive ReachesInWord (g : Graph) : Scalar × Value → Prop
  | key {key v} : (Value.scalar key).Untold → ReachesInWord g (key, v)
  | entry {key : Scalar} {id} {entries : Entries} : key.written? = some id →
      g.ReachesInTree id entries (entries.getD "derivatives") → ReachesInWord g (key, .mapping entries)

theorem addWord_escapes (g : Graph) (id : String) (v : Value) : Escapes Reported (g.addWord id v).2
    (∃ entries : Entries, v = .mapping entries ∧ g.ReachesInTree id entries (entries.getD "derivatives")) := by
  unfold addWord
  split
  · next entries => exact (g.addTree_escapes _ _ _).congr (by simp)
  · next other =>
    refine .reported (.refused (.document _)) ?_
    rintro ⟨entries, same, -⟩
    exact other entries same

theorem withWord_escapes (g : Graph) (e : Scalar × Value) : Escapes Reported (g.withWord e) (g.ReachesInWord e) := by
  obtain ⟨key, v⟩ := e
  unfold withWord
  split
  · next untold => exact .escaped (.key (Scalar.written?_eq_none_iff.mp untold))
  · next id told =>
    refine (escapes_settle.mpr (g.addWord_escapes id v)).congr ⟨?_, ?_⟩
    · rintro ⟨entries, rfl, reaches⟩
      exact .entry told reaches
    · rintro (untold | ⟨again, reaches⟩)
      · rw [Scalar.written?_eq_none_iff.mpr untold] at told
        cases told
      · obtain rfl := Option.some.inj (told.symm.trans again)
        exact ⟨_, rfl, reaches⟩

/-- Of the words of a document one is reached that is not as expected. -/
def ReachesWord : Entries → Graph → Prop :=
  Reaches withWord ReachesInWord

theorem addWords_escapes (es : Entries) (g : Graph) : Escapes Reported (addWords es g).2 (ReachesWord es g) := by
  rw [← escapes_settle, settle_addWords]
  exact .foldlM withWord_escapes es g

end Graph

namespace Assembly

/-- Something that is not expected is reached. It is either found in the sections other than the words, or it is found
in a word once all these are accepted. -/
def ReachesUnsuitable (a : Assembly) (doc : Entries) : Prop :=
  a.ReachesUntellable (doc.without "words") ∨ ∃ b es, a.addDocument (doc.without "words") = (b, .ok ()) ∧
    (doc.getD "words").section? = some es ∧ Graph.ReachesWord es b.graph

/-- A document is accepted, or refused with a fault that tells what is wrong with it, or something is reached in it
that is not expected at its place; then, and only then, the fault tells nothing. -/
theorem addDocument_escapes_iff (a : Assembly) (doc : Entries) :
    ((a.addDocument doc).2 = .ok () ∨ (∃ fault, (a.addDocument doc).2 = .error fault ∧ Reported fault) ∨
        (a.addDocument doc).2 = .error .unsuitable) ∧
      ((a.addDocument doc).2 = .error .unsuitable ↔ a.ReachesUnsuitable doc) := by
  have escapes : Escapes Reported (a.addDocument doc).2 (a.ReachesUnsuitable doc) := by
    rw [addDocument_eq_andThen]
    have others := (a.addDocument_without_escapes doc).mono fun _ => Reported.refused
    simp only [ReachesUnsuitable, exists_and_left]
    refine andThen_escapes others fun b _ => ?_
    rw [addWordSection_eq]
    exact elim_escapes (.reported (.refused (.document _)) id) fun es => Graph.addWords_escapes es b.graph
  refine ⟨?_, escapes.unsuitable⟩
  cases outcome : (a.addDocument doc).2 with
  | ok u => exact .inl rfl
  | error fault =>
    rcases escapes.told fault outcome with rfl | told
    · exact .inr (.inr rfl)
    · exact .inr (.inl ⟨fault, rfl, told⟩)

/-- A section and a key of a condition that are no texts, links with a number for transforms, and fields that are
no mapping. -/
def oddities : List Entries :=
  let words := fun (entry : Entries) => [(.text "words", .mapping [(.text "aqua", .mapping entry)])]
  [[(.int 1, .null)],
    [(.text "globals", .list [.mapping [
      (.text "transforms", .list []), (.text "conditional", .mapping [(.int 1, .null)])]])],
    words [(.text "etymology", .list [.mapping [(.text "etymon", .text "wasser"), (.text "transforms", .int 5)]])],
    words [(.text "derivatives", .list [.mapping [(.text "transforms", .int 5)]])],
    words [(.text "derivatives", .list [.mapping [(.text "lexis", .list [.text "a"])]])]]

/-- None of them is refused with a fault that tells what is wrong. -/
theorem oddities_unsuitable : (oddities.map fun doc => (({} : Assembly).addDocument doc).2) =
    List.replicate 5 (.error .unsuitable) := by
  decide +kernel

end Assembly

end Etymology
