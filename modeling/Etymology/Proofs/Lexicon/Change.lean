import Etymology.Project
import Etymology.Proofs.Graph.Change
import Etymology.Proofs.Lexicon.Outcome

namespace Etymology.Lexicon

/-- A derivation that does not lead to the changed lexis means what it meant. -/
theorem meaning_of_changedAt {l : Lexicon} {g : Graph} {id : String} (changed : l.graph.ChangedAt g id)
    (leaf : Lexis → Except Fault Word) (path : List String) {a : String} (other : a ≠ id)
    (apart : ¬ Relation.TransGen l.graph.Linked a id) :
    meaning { l with graph := g } leaf path a = l.meaning leaf path a := by
  have look := changed.elsewhere a other
  fun_induction l.meaning leaf path a with
  | case1 path a absent => exact meaning_absent (look.trans absent)
  | case2 path a x found w literal => exact meaning_literal (look.trans found) literal
  | case3 path a x found bare again => exact meaning_cycle (look.trans found) bare again
  | case4 path a x found bare fresh unlinked =>
    exact meaning_leaf (look.trans found) bare fresh (List.isEmpty_iff.mp unlinked)
  | case5 path a x found bare fresh linked ih =>
    have linked : x.etymons ≠ [] := fun none => linked (List.isEmpty_iff.mpr none)
    have leads : ∀ e ∈ x.etymons, e.ancestor ∈ l.graph.ids → l.graph.Linked a e.ancestor := by
      intro e link present
      obtain ⟨y, atE⟩ := Graph.exists_get?_of_mem_ids present
      exact ⟨x, y, found, atE, e, link, rfl⟩
    have others : ∀ e ∈ x.etymons, e.ancestor ≠ id := by
      rintro e link rfl
      exact apart (.single (leads e link changed.before))
    rw [meaning_derived (look.trans found) bare fresh linked]
    refine derive_congr (fun e link => changed.elsewhere _ (others e link)) fun e link => ?_
    refine ih e.ancestor (others e link) (fun further => ?_) (changed.elsewhere _ (others e link))
    exact apart (.head (leads e link (Graph.mem_ids_of_transGen_linked further)) further)

/-- With the new graph a lexicon differs at an id and below only: apart from the id the same lexes descend
from it, and whatever does not has the word or the fault that it had. -/
structure Confined (l : Lexicon) (id : String) (g : Graph) : Prop where
  descendants : ∃ before after, l.graph.descendants id = .ok before ∧ g.descendants id = .ok after ∧
    ∀ a, a ≠ id → (a ∈ after ↔ a ∈ before)
  outcomes : ∀ before, l.graph.descendants id = .ok before → ∀ a, a ≠ id → a ∉ before →
    ∀ picks picks' : Picks, (resolve { l with graph := g } a { picks := picks }).1 =
      (l.resolve a { picks := picks' }).1

theorem confined_of_changedAt {l : Lexicon} {g : Graph} {id : String} (silent : l.generator = none)
    (changed : l.graph.ChangedAt g id) : l.Confined id g where
  descendants := by
    have listed := Graph.descendants_of_mem_ids changed.before
    have listed' := Graph.descendants_of_mem_ids changed.after
    refine ⟨_, _, listed, listed', fun a other => ?_⟩
    rw [Graph.mem_descendants changed.before listed, Graph.mem_descendants changed.after listed']
    exact changed.transGen_linked_iff other
  outcomes := by
    intro before listed a other outside picks picks'
    rw [Graph.mem_descendants changed.before listed] at outside
    have settles := settles_wordless (l := { l with graph := g }) silent { picks := picks }
    have settles' := settles_wordless silent { picks := picks' }
    rw [(atRest_fresh _ picks).resolve_eq_meaning settles, (atRest_fresh l picks').resolve_eq_meaning settles']
    exact meaning_of_changedAt changed wordless [] other outside

/-- Without phonetic rules, another lexis in the place of one reaches no further than its descendants,
whatever the two have in common besides the id; in particular another word does, or none. -/
theorem replacement_confined {l : Lexicon} {id : String} (silent : l.generator = none)
    (present : id ∈ l.graph.ids) :
    (∀ y : Lexis, y.id = id → ∃ g, l.graph.replace y = .ok g ∧ l.Confined id g) ∧
      ∀ p : Project, p.lexicon = l → ∀ w, ∃ q, p.setWord id w = .ok q ∧
        q.lexicon = { l with graph := q.graph } ∧ l.Confined id q.graph := by
  obtain ⟨x, found⟩ := Graph.exists_get?_of_mem_ids present
  have same := Graph.id_of_get? found
  constructor
  · rintro y rfl
    refine ⟨l.graph.set y, by simp only [Graph.replace, Graph.get, found], ?_⟩
    exact confined_of_changedAt silent (Graph.changedAt_set present)
  · rintro p rfl w
    have atId : p.graph.get? id = some x := found
    subst same
    refine ⟨{ p with graph := p.graph.set { x with word := w.filter fun w => !w.isEmpty } }, ?_, rfl, ?_⟩
    · simp only [Project.setWord, Graph.get, atId]
    · exact confined_of_changedAt silent (Graph.changedAt_set present)

/-- A root with two branches, one of which goes on to a tip. -/
def branches : Lexicon where
  graph := {
    nodes := [
      { id := "tip", etymons := [⟨"left", [], 0⟩] },
      { id := "left", etymons := [⟨"root", [], 0⟩] },
      { id := "right", etymons := [⟨"root", [], 0⟩] },
      { id := "root", word := some ⟨["k", "a"]⟩ }]
    ids_nodup := by decide }

/-- A new left branch, which even derives from the right one, leaves the word of the right one alone. -/
theorem branches_right_kept :
    branches.generator = none ∧ "left" ∈ branches.graph.ids ∧
      ∃ g, branches.graph.replace { id := "left", etymons := [⟨"right", [], 0⟩] } = .ok g ∧
        (resolve { branches with graph := g } "right" {}).1 = .ok ⟨["k", "a"]⟩ := by
  have silent : branches.generator = none := rfl
  have present : "left" ∈ branches.graph.ids := by decide
  obtain ⟨g, put, confined⟩ := (replacement_confined silent present).1
    { id := "left", etymons := [⟨"right", [], 0⟩] } rfl
  have below : branches.graph.descendants "left" = .ok ["tip"] := by decide +kernel
  refine ⟨silent, present, g, put, ?_⟩
  rw [confined.outcomes ["tip"] below "right" (by decide) (by decide) {} {}]
  decide +kernel

end Etymology.Lexicon
