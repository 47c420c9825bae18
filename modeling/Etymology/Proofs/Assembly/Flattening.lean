import Etymology.Proofs.Assembly.DerivativeId
import Etymology.Proofs.Assembly.Sections
import Etymology.Proofs.Graph.Insertion

namespace Etymology

/-- A derivative is the lexis that its fields describe apart from any etymology, with one link, to its
parent. -/
structure DerivativeOf (parent : String) (index : Nat) (derivative fields : Entries) (x : Lexis) : Prop where
  reads : (derivative.getD "lexis").entries? = some fields
  named : parent ≠ ""
  linked : ∃ y names, Lexis.ofEntries (derivativeId parent index) (fields.without "etymology") = .ok y ∧
    Lexis.transformNames (derivative.getD "transforms") = some names ∧
    x = { y with etymons := [{ ancestor := parent, transforms := names, order := 0 }] }

/-- The derivatives of a parent, from an index on, each followed by all that derives from it. -/
inductive Flattened : String → Nat → List Value → List Lexis → Prop
  | nil {parent index} : Flattened parent index [] []
  | cons {parent index derivative fields x items rest xs ys} :
    DerivativeOf parent index derivative fields x →
    (fields.getD "derivatives").items? = some items →
    Flattened x.id 0 items xs →
    Flattened parent (index + 1) rest ys →
    Flattened parent index (.mapping derivative :: rest) (x :: xs ++ ys)

theorem DerivativeOf.id {parent : String} {index : Nat} {derivative fields : Entries} {x : Lexis}
    (derived : DerivativeOf parent index derivative fields x) : x.id = derivativeId parent index := by
  obtain ⟨y, names, read, -, rfl⟩ := derived.linked
  exact (Lexis.id_of_ofEntries read : y.id = derivativeId parent index)

/-- A derivative is read like the entry that is put in its place. -/
theorem derivativeOf_iff {parent : String} {index : Nat} {derivative fields : Entries} {x : Lexis} :
    DerivativeOf parent index derivative fields x ↔ (derivative.getD "lexis").entries? = some fields ∧
      Lexis.ofEntries (derivativeId parent index)
        (fields.put (.text "etymology") (derivativeEtymology parent (derivative.getD "transforms"))) = .ok x := by
  have etymology : ∀ v, (fields.put (.text "etymology") v).getD "etymology" = v := by
    intro v
    rw [Entries.getD, Entries.get?_put_self]
    rfl
  rw [Lexis.ofEntries_eq _ (fields.put _ _), Entries.without_put, etymology, bind_eq_ok]
  simp only [bind_eq_ok, Lexis.etymonsOf_derivativeEtymology]
  constructor
  · rintro ⟨fields, named, y, names, read, transforms, rfl⟩
    exact ⟨fields, y, read, _, ⟨named, names, transforms, rfl⟩, rfl⟩
  · rintro ⟨fields, y, read, etymons, ⟨named, names, transforms, rfl⟩, same⟩
    exact ⟨fields, named, y, names, read, transforms, (Except.ok.inj same).symm⟩

/-- Whatever is beneath the derivatives of a derivative is beneath that derivative. -/
theorem DerivativeOf.beneath_of_mem {parent id : String} {index : Nat} {derivative fields : Entries} {x : Lexis}
    {xs : List Lexis} (derived : DerivativeOf parent index derivative fields x)
    (inner : id ∈ xs.map Lexis.id → ∃ k, Beneath x.id k id) (member : id ∈ (x :: xs).map Lexis.id) :
    Beneath parent index id := by
  rcases List.mem_cons.mp member with rfl | member
  · exact derived.id ▸ Beneath.self parent index
  · obtain ⟨k, below⟩ := inner member
    exact Beneath.deeper (derived.id ▸ below)

namespace Flattened

variable {parent : String} {index : Nat} {items : List Value} {xs : List Lexis}

/-- The id of whatever derives from a parent is beneath one of its derivatives. -/
theorem beneath_of_mem {id : String} (flat : Flattened parent index items xs) (member : id ∈ xs.map Lexis.id) :
    ∃ k, index ≤ k ∧ Beneath parent k id := by
  induction flat with
  | nil => cases member
  | @cons parent index derivative fields x items rest xs ys derived _ _ _ inner later =>
    rw [List.map_append, List.mem_append] at member
    rcases member with here | there
    · exact ⟨index, Nat.le_refl index, derived.beneath_of_mem (fun m => (inner m).imp fun _ => And.right) here⟩
    · obtain ⟨k, bound, below⟩ := later there
      exact ⟨k, Nat.le_of_succ_le bound, below⟩

theorem parent_not_mem (flat : Flattened parent index items xs) : parent ∉ xs.map Lexis.id := by
  intro member
  obtain ⟨k, -, below⟩ := flat.beneath_of_mem member
  exact below.ne_parent rfl

/-- No two lexes among all that derives from a parent have one id. -/
theorem nodup (flat : Flattened parent index items xs) : (xs.map Lexis.id).Nodup := by
  induction flat with
  | nil => exact List.nodup_nil
  | @cons parent index derivative fields x items rest xs ys derived _ below after inner later =>
    rw [List.map_append, List.nodup_append, List.map_cons, List.nodup_cons]
    refine ⟨⟨below.parent_not_mem, inner⟩, later, ?_⟩
    -- Ids of the two parts are beneath different derivatives of the parent.
    rintro a here b there rfl
    have first := derived.beneath_of_mem (fun m => (below.beneath_of_mem m).imp fun _ => And.right) here
    obtain ⟨k, bound, second⟩ := after.beneath_of_mem there
    obtain rfl := second.index_unique first
    omega

end Flattened

namespace Graph

theorem exists_lexis_of_addEntry {g h : Graph} {id : String} {entries : Entries}
    (added : g.addEntry id entries = .ok h) : ∃ x, Lexis.ofEntries id entries = .ok x := by
  unfold addEntry at added
  split at added
  · cases added
  · next x read => exact ⟨x, read⟩

theorem addTree_eq (g : Graph) (id : String) (entries : Entries) (derivatives : Value) :
    g.addTree id entries derivatives = match g.addEntry id entries with
      | .error fault => (g, .error fault)
      | .ok h => derivatives.items?.elim (h, .error (.document (.entry id (.notList "derivatives"))))
          (h.addDerivatives id 0) := by
  rw [addTree]
  cases g.addEntry id entries with
  | error fault => rfl
  | ok h =>
    have none : (h, Except.ok ()) = h.addDerivatives id 0 [] := by rw [addDerivatives]
    simp only [none]
    exact derivatives.items?_elim _ _

/-- A tree is added by adding what it is made of in turn, where its derivatives are. -/
theorem addTree_eq_insertEach {id : String} {entries : Entries} {derivatives : Value} {x : Lexis}
    {items : List Value} {xs : List Lexis} (read : Lexis.ofEntries id entries = .ok x)
    (list : derivatives.items? = some items)
    (inner : ∀ g, addDerivatives g x.id 0 items = insertEach xs g) (g : Graph) :
    g.addTree id entries derivatives = insertEach (x :: xs) g := by
  obtain rfl := Lexis.id_of_ofEntries read
  simp only [addTree_eq, addEntry, read, list, insertEach]
  cases g.contains x.id with
  | true => rfl
  | false =>
    simp only [Bool.false_eq_true, if_false]
    cases g.add x with
    | error fault => rfl
    | ok h => exact inner h

theorem addDerivatives_cons {derivative fields : Entries} {parent : String} {index : Nat} {rest : List Value}
    (reads : (derivative.getD "lexis").entries? = some fields) (g : Graph) :
    g.addDerivatives parent index (.mapping derivative :: rest) =
      match g.addTree (derivativeId parent index)
          (fields.put (.text "etymology") (derivativeEtymology parent (derivative.getD "transforms")))
          (fields.getD "derivatives") with
      | (g, .error fault) => (g, .error fault)
      | (g, .ok ()) => g.addDerivatives parent (index + 1) rest := by
  rw [addDerivatives]
  split
  · next none =>
    rw [reads] at none
    cases none
  · next entries some =>
    obtain rfl := Option.some.inj (reads.symm.trans some)
    rfl

end Graph

/-- Where the derivatives can be read, they are added one after the other. -/
theorem Flattened.addDerivatives_eq {parent : String} {index : Nat} {items : List Value} {xs : List Lexis}
    (flat : Flattened parent index items xs) (g : Graph) :
    g.addDerivatives parent index items = g.insertEach xs := by
  induction flat generalizing g with
  | nil => rw [Graph.addDerivatives, Graph.insertEach]
  | @cons parent index derivative fields x items rest xs ys derived list _ _ inner later =>
    obtain ⟨reads, read⟩ := derivativeOf_iff.mp derived
    rw [Graph.addDerivatives_cons reads, Graph.addTree_eq_insertEach read list inner, Graph.insertEach_append]
    cases Graph.insertEach (x :: xs) g with
    | mk h outcome => cases outcome with
      | error fault => rfl
      | ok u => exact later h

/-- A tree that is accepted can be read if what its derivatives are made of can be. -/
theorem Graph.exists_tree_of_addTree {g : Graph} {id : String} {entries : Entries} {derivatives : Value}
    (accepted : (g.addTree id entries derivatives).2 = .ok ())
    (inner : ∀ h items, g.addEntry id entries = .ok h → derivatives.items? = some items →
      (h.addDerivatives id 0 items).2 = .ok () → ∃ xs, Flattened id 0 items xs) :
    ∃ x items xs, Lexis.ofEntries id entries = .ok x ∧ derivatives.items? = some items ∧
      Flattened x.id 0 items xs := by
  rw [addTree_eq] at accepted
  cases added : g.addEntry id entries with
  | error fault =>
    rw [added] at accepted
    cases accepted
  | ok h =>
    rw [added] at accepted
    cases list : derivatives.items? with
    | none =>
      rw [list] at accepted
      cases accepted
    | some items =>
      rw [list] at accepted
      obtain ⟨x, read⟩ := exists_lexis_of_addEntry added
      obtain ⟨xs, flat⟩ := inner h items added list accepted
      exact ⟨x, items, xs, read, rfl, (Lexis.id_of_ofEntries read).symm ▸ flat⟩

theorem Value.items?_of_not_list {v : Value} (other : ∀ items, v = .list items → False) :
    v.items? = if v.isFalsy then some [] else none := by
  cases v with
  | list items => exact (other items rfl).elim
  | scalar s => rfl
  | mapping entries => rfl

/-- Derivatives that are accepted can be read, and so can all that derives from them. -/
theorem Graph.exists_flattened (g : Graph) (parent : String) (index : Nat) (items : List Value)
    (accepted : (g.addDerivatives parent index items).2 = .ok ()) : ∃ xs, Flattened parent index items xs := by
  revert accepted
  -- Trees and lists of derivatives call each other, so both are followed at once.
  refine addDerivatives.induct
    (fun g id entries derivatives => (g.addTree id entries derivatives).2 = .ok () →
      ∃ x items xs, Lexis.ofEntries id entries = .ok x ∧ derivatives.items? = some items ∧ Flattened x.id 0 items xs)
    (fun g parent index items => (g.addDerivatives parent index items).2 = .ok () →
      ∃ xs, Flattened parent index items xs)
    ?badEntry ?list ?absent ?noList ?done ?badFields ?refused ?next ?noMapping g parent index items
  case badEntry =>
    intro g id entries derivatives fault refused accepted
    rw [addTree_eq, refused] at accepted
    cases accepted
  case list =>
    intro g id entries h added items ih accepted
    refine exists_tree_of_addTree accepted fun k items again list run => ?_
    obtain rfl := Except.ok.inj (added.symm.trans again)
    cases list
    exact ih run
  case absent =>
    intro g id entries h added v other falsy accepted
    refine exists_tree_of_addTree accepted fun k items _ list _ => ?_
    rw [Value.items?_of_not_list other, if_pos falsy] at list
    cases list
    exact ⟨[], .nil⟩
  case noList =>
    intro g id entries h added v other truthy accepted
    refine exists_tree_of_addTree accepted fun k items _ list _ => ?_
    rw [Value.items?_of_not_list other, if_neg truthy] at list
    cases list
  case done => exact fun g parent index _ => ⟨[], .nil⟩
  case badFields =>
    intro g parent index derivative rest unread accepted
    rw [addDerivatives] at accepted
    split at accepted
    · cases accepted
    · next fields read =>
      rw [unread] at read
      cases read
  case refused =>
    intro g parent index derivative rest fields reads etymology h fault refused _ accepted
    rw [addDerivatives_cons reads, refused] at accepted
    cases accepted
  case next =>
    intro g parent index derivative rest fields reads etymology h added tree later accepted
    rw [addDerivatives_cons reads, added] at accepted
    obtain ⟨x, items, xs, read, list, inner⟩ := tree (by rw [added])
    obtain ⟨ys, after⟩ := later accepted
    exact ⟨x :: xs ++ ys, .cons (derivativeOf_iff.mpr ⟨reads, read⟩) list inner after⟩
  case noMapping =>
    intro g parent index v rest other accepted
    rw [addDerivatives] at accepted
    · cases accepted
    · exact other

end Etymology
