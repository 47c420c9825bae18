import Etymology.Graph.Cycle
import Etymology.Proofs.Graph.Links

namespace Etymology.Graph

/-- All links from an id on come to an end. -/
def Terminating (g : Graph) (id : String) : Prop :=
  Acc (fun b a => g.Linked a b) id

/-- The links of a lexis on the path that are no longer pending: each leads nowhere, to a finished
lexis, or to the next lexis of the path. -/
def Scanned (g : Graph) (finished : List String) (above : Option String) (v : Visit) : Prop :=
  ∃ x seen, g.get? v.id = some x ∧ x.etymons = seen ++ v.pending ∧
    ∀ e ∈ seen, g.get? e.ancestor = none ∨ e.ancestor ∈ finished ∨ above = some e.ancestor

/-- The same for the whole path, given from its deepest visit. -/
def ScannedPath (g : Graph) (finished : List String) : Option String → List Visit → Prop
  | _, [] => True
  | above, v :: path => g.Scanned finished above v ∧ g.ScannedPath finished (some v.id) path

theorem Scanned.next {g : Graph} {finished : List String} {id : String} {e : Etymon} {pending : List Etymon}
    {above : Option String} (scanned : g.Scanned finished none ⟨id, e :: pending⟩)
    (leads : g.get? e.ancestor = none ∨ e.ancestor ∈ finished ∨ above = some e.ancestor) :
    g.Scanned finished above ⟨id, pending⟩ := by
  obtain ⟨x, seen, found, split, followed⟩ := scanned
  refine ⟨x, seen ++ [e], found, by simpa using split, ?_⟩
  intro d member
  rcases List.mem_append.mp member with old | new
  · rcases followed d old with nowhere | done | impossible
    · exact .inl nowhere
    · exact .inr (.inl done)
    · cases impossible
  · obtain rfl := List.mem_singleton.mp new
    exact leads

theorem Scanned.finish {g : Graph} {finished : List String} {id : String} {v : Visit}
    (scanned : g.Scanned finished (some id) v) : g.Scanned (id :: finished) none v := by
  obtain ⟨x, seen, found, split, followed⟩ := scanned
  refine ⟨x, seen, found, split, ?_⟩
  intro e member
  rcases followed e member with nowhere | done | above
  · exact .inl nowhere
  · exact .inr (.inl (List.mem_cons_of_mem id done))
  · obtain rfl := Option.some.inj above
    exact .inr (.inl List.mem_cons_self)

theorem ScannedPath.more {g : Graph} {finished : List String} {id : String} {above : Option String}
    {path : List Visit} (scanned : g.ScannedPath finished above path) :
    g.ScannedPath (id :: finished) above path := by
  induction path generalizing above with
  | nil => trivial
  | cons v path ih =>
    obtain ⟨⟨x, seen, found, split, followed⟩, rest⟩ := scanned
    refine ⟨⟨x, seen, found, split, ?_⟩, ih rest⟩
    intro e member
    rcases followed e member with nowhere | done | here
    · exact .inl nowhere
    · exact .inr (.inl (List.mem_cons_of_mem id done))
    · exact .inr (.inr here)

theorem ScannedPath.finish {g : Graph} {finished : List String} {id : String} {path : List Visit}
    (scanned : g.ScannedPath finished (some id) path) : g.ScannedPath (id :: finished) none path := by
  cases path with
  | nil => trivial
  | cons v path => exact ⟨scanned.1.finish, scanned.2.more⟩

/-- With no link pending, every link of a lexis leads to a finished one or nowhere. -/
theorem Scanned.terminating {g : Graph} {finished : List String} {id : String}
    (scanned : g.Scanned finished none ⟨id, []⟩) (ends : ∀ v ∈ finished, g.Terminating v) :
    g.Terminating id := by
  obtain ⟨x, seen, found, split, followed⟩ := scanned
  refine .intro id ?_
  rintro b ⟨y, z, atId, atB, e, link, rfl⟩
  obtain rfl : x = y := Option.some.inj (found.symm.trans atId)
  rw [split, List.append_nil] at link
  rcases followed e link with nowhere | done | impossible
  · rw [nowhere] at atB
    cases atB
  · exact ends _ done
  · cases impossible

/-- What a search without result has finished: all that it began with, and the whole path. -/
theorem explore_finished {g : Graph} {finished : List String} {path : List Visit}
    (quiet : (g.explore finished path).2 = none) :
    (∀ v ∈ finished, v ∈ (g.explore finished path).1) ∧ ∀ v ∈ path, v.id ∈ (g.explore finished path).1 := by
  fun_induction g.explore finished path with
  | case1 finished => exact ⟨fun v member => member, fun v member => by cases member⟩
  | case2 finished id path ih =>
    obtain ⟨kept, reached⟩ := ih quiet
    refine ⟨fun v member => kept v (List.mem_cons_of_mem id member), ?_⟩
    exact List.forall_mem_cons.mpr ⟨kept _ List.mem_cons_self, reached⟩
  | case3 finished id e pending path absent ih =>
    obtain ⟨kept, reached⟩ := ih quiet
    exact ⟨kept, by simpa using reached⟩
  | case4 => cases quiet
  | case5 finished id e pending path x found off done ih =>
    obtain ⟨kept, reached⟩ := ih quiet
    exact ⟨kept, by simpa using reached⟩
  | case6 finished id e pending path x found off fresh ih =>
    obtain ⟨kept, reached⟩ := ih quiet
    exact ⟨kept, by simpa using (List.forall_mem_cons.mp reached).2⟩

/-- All links of a lexis that such a search finishes come to an end. -/
theorem explore_terminating {g : Graph} {finished : List String} {path : List Visit}
    (ends : ∀ v ∈ finished, g.Terminating v) (scanned : g.ScannedPath finished none path)
    (quiet : (g.explore finished path).2 = none) : ∀ v ∈ (g.explore finished path).1, g.Terminating v := by
  fun_induction g.explore finished path with
  | case1 finished => exact ends
  | case2 finished id path ih =>
    obtain ⟨here, rest⟩ := scanned
    exact ih (List.forall_mem_cons.mpr ⟨here.terminating ends, ends⟩) rest.finish quiet
  | case3 finished id e pending path absent ih =>
    obtain ⟨here, rest⟩ := scanned
    exact ih ends ⟨here.next (.inl absent), rest⟩ quiet
  | case4 => cases quiet
  | case5 finished id e pending path x found off done ih =>
    obtain ⟨here, rest⟩ := scanned
    exact ih ends ⟨here.next (.inr (.inl done)), rest⟩ quiet
  | case6 finished id e pending path x found off fresh ih =>
    obtain ⟨here, rest⟩ := scanned
    have same := id_of_get? found
    -- The link is followed, but to a lexis that is only finished later: it is on the path above.
    have opened : g.Scanned finished none ⟨x.id, x.etymons⟩ :=
      ⟨x, [], get?_self found, rfl, fun e member => by cases member⟩
    have waits : g.Scanned finished (some x.id) ⟨id, pending⟩ :=
      here.next (.inr (.inr (congrArg some same)))
    exact ih ends ⟨opened, waits, rest⟩ quiet

theorem findCycleFrom_terminating {g : Graph} {finished : List String} {rest : List Lexis}
    (inside : ∀ x ∈ rest, x ∈ g.nodes) (ends : ∀ v ∈ finished, g.Terminating v)
    (quiet : g.findCycleFrom finished rest = none) : ∀ x ∈ rest, g.Terminating x.id := by
  induction rest generalizing finished with
  | nil => intro x member; cases member
  | cons x rest ih =>
    have later : ∀ y ∈ rest, y ∈ g.nodes := fun y member => inside y (List.mem_cons_of_mem x member)
    rw [List.forall_mem_cons]
    unfold findCycleFrom at quiet
    split at quiet
    · next done =>
      exact ⟨ends _ (by simpa using done), ih later ends quiet⟩
    · have start : g.ScannedPath finished none [⟨x.id, x.etymons⟩] :=
        ⟨⟨x, [], get?_of_mem (inside x List.mem_cons_self), rfl, fun e member => by cases member⟩, trivial⟩
      split at quiet
      · cases quiet
      · next finished' run =>
        have terminating := explore_terminating ends start (by rw [run])
        obtain ⟨-, reached⟩ := explore_finished (congrArg Prod.snd run)
        rw [run] at terminating reached
        exact ⟨terminating _ (reached _ List.mem_cons_self), ih later terminating quiet⟩

/-- Where the search finds no cycle, no lexis is linked to itself, directly or through others. -/
theorem not_transGen_linked_of_findCycle?_eq_none {g : Graph} (quiet : g.findCycle? = none)
    (id : String) : ¬ Relation.TransGen g.Linked id id := by
  intro around
  obtain ⟨_, ⟨x, -, found, -⟩, -⟩ := Relation.TransGen.head'_iff.mp around
  obtain ⟨member, rfl⟩ := get?_eq_some.mp found
  have terminating := findCycleFrom_terminating (fun x member => member) (by simp) quiet x member
  exact not_transGen_self_of_acc terminating around

/-- No derivation runs in a circle where the search finds no cycle. -/
theorem cycleFreeFrom_of_findCycle?_eq_none {g : Graph} (quiet : g.findCycle? = none) (id : String) :
    g.CycleFreeFrom id := by
  intro v _ around
  have linked : g.RestsOn ≤ g.Linked := fun _ _ rests => rests.linked
  exact not_transGen_linked_of_findCycle?_eq_none quiet v (Relation.TransGen.mono linked v v around)

end Etymology.Graph
