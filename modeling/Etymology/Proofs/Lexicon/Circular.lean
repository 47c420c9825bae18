import Etymology.Proofs.Graph.Circle
import Etymology.Proofs.Lexicon.Origin
import Etymology.Proofs.Lexicon.Turns

namespace Etymology

section OtherFaults

variable {path : List String}

/-- The transforms of a link report no cycles. -/
theorem Lexicon.pipeline_ne_cycle (l : Lexicon) (id : String) (link : Etymon) (source : Lexis) (w : Word) :
    l.pipeline id link source w ≠ .error (.cycle path) := by
  intro failed
  rw [← contribution_eq_pipeline, contribution] at failed
  split at failed
  · next ts looked =>
    cases ran : runSteps source l.scripts (Transform.chain ts) w with
    | ok v => simp [ran, Except.mapError] at failed
    | error cause =>
      obtain ⟨s, -, file, text, -, said⟩ := runSteps_error ran
      obtain ⟨lexis, place, reason, rfl⟩ := ScriptRunner.apply_error said
      simp [ran, Except.mapError, blameScript] at failed
  · next cause looked =>
    obtain ⟨name, -, -, rfl⟩ := transformsOf_error looked
    simp at failed

/-- Nor do the global rules. -/
theorem Lexicon.agglutinated_ne_cycle (l : Lexicon) (x : Lexis) (cs : List Contribution) :
    l.agglutinated x cs ≠ .error (.cycle path) := by
  intro failed
  rw [agglutinated, ← GlobalRule.applyAll_eq_runAll] at failed
  obtain ⟨r, -, file, text, -, said⟩ := GlobalRule.applyAll_error failed
  obtain ⟨lexis, place, reason, impossible⟩ := ScriptRunner.apply_error said
  cases impossible

end OtherFaults

namespace Lexicon

/-- The lexes in progress rest on one another, each on the one entered after it. -/
theorem Stacked.isChain_inProgress {l : Lexicon} {frames : List Frame} {p : Pass}
    (stacked : l.Stacked frames p) : p.inProgress.IsChain l.graph.RestsOn := by
  rw [stacked.inProgress, List.isChain_reverse, List.isChain_map]
  refine stacked.waiting.imp_of_mem_imp fun upper lower above below waits => ?_
  exact (stacked.sound lower below).restsOn_of_waitsFor (stacked.sound upper above) waits

theorem Stacked.nodup_inProgress {l : Lexicon} {frames : List Frame} {p : Pass}
    (stacked : l.Stacked frames p) : p.inProgress.Nodup := by
  rw [stacked.inProgress, List.nodup_reverse]
  exact stacked.distinct

/-- A link of the top frame back to a lexis in progress closes a circle, from that lexis on. -/
theorem Stacked.circle {l : Lexicon} {top : Frame} {below : List Frame} {p : Pass} {id : String}
    (stacked : l.Stacked (top :: below) p) (again : id ∈ p.inProgress)
    (back : l.graph.RestsOn top.lexis.id id) : Circle l.graph.RestsOn id (p.chainFrom id) := by
  obtain ⟨before, between, split, first⟩ := List.eq_append_cons_of_mem again
  have skipped : p.inProgress.dropWhile (· != id) = id :: between := by
    rw [split, List.dropWhile_append_of_pos, List.dropWhile_cons_of_neg]
    · simp
    · intro a member
      rw [bne_iff_ne]
      rintro rfl
      exact first member
  have last : (id :: between).getLast? = some top.lexis.id := by
    have atEnd : p.inProgress.getLast? = some top.lexis.id := by
      rw [stacked.inProgress, List.map_cons, List.reverse_cons, List.getLast?_concat]
    rwa [split, List.getLast?_append_cons] at atEnd
  have chain := stacked.isChain_inProgress
  have distinct := stacked.nodup_inProgress
  rw [split] at chain distinct
  rw [Pass.chainFrom, skipped]
  exact Circle.of_chain chain distinct last back

/-- The lowest lexis of the stack leads to all others in progress. -/
theorem Stacked.reach_of_lowest {l : Lexicon} {frames : List Frame} {lowest : Frame} {p : Pass}
    {id : String} (stacked : l.Stacked frames p) (last : frames.getLast? = some lowest)
    (member : id ∈ p.inProgress) : Relation.ReflTransGen l.graph.RestsOn lowest.lexis.id id := by
  have head : p.inProgress.head? = some lowest.lexis.id := by
    rw [stacked.inProgress, List.head?_reverse, List.getLast?_map, last, Option.map_some]
  have chain := stacked.isChain_inProgress
  generalize p.inProgress = ids at head chain member
  cases ids with
  | nil => cases member
  | cons first ids =>
    obtain rfl : first = lowest.lexis.id := by simpa using head
    rcases List.mem_cons.mp member with rfl | later
    · exact .refl
    · exact (chain.imp fun _ _ => Relation.ReflTransGen.single).rel_cons later

/-- A move fails with a cycle only where its link leads back to the stack. -/
theorem Stacked.circle_of_failed {l : Lexicon} {top : Frame} {below : List Frame} {p q : Pass}
    {path : List String} (stacked : l.Stacked (top :: below) p)
    (move : l.advance top p = .failed (.cycle path) q) :
    ∃ v ∈ p.inProgress, Circle l.graph.RestsOn v path := by
  have moved := l.moved top p
  rw [move] at moved
  cases moved with
  | unfinished done joined => exact absurd joined (l.agglutinated_ne_cycle _ _)
  | refused pending found entry run => exact absurd run (l.pipeline_ne_cycle _ _ _ _)
  | @blocked link links x _ _ pending found entry =>
    have entered := l.entered x p
    rw [entry] at entered
    cases entered with
    | ungenerated unknown bare idle unlinked run => cases generated_error run
    | circular unknown bare again =>
      have rests := (stacked.sound top List.mem_cons_self).restsOn pending found bare
      rw [← Graph.id_of_get? found] at rests
      exact ⟨x.id, again, stacked.circle again rests⟩

/-- A cycle that is reported for an id is a circle that the derivation of the id runs into. -/
theorem AtRest.resolve_circle {l : Lexicon} {p : Pass} {id : String} {path : List String}
    (rest : l.AtRest p) (failed : (l.resolve id p).1 = .error (.cycle path)) :
    ∃ v, Relation.ReflTransGen l.graph.RestsOn id v ∧ Circle l.graph.RestsOn v path := by
  have resolved := l.resolved id p
  generalize l.resolve id p = result at resolved failed
  cases resolved with
  | kept => cases failed
  | absent => cases failed
  | known => cases failed
  | @failed x fault q found entry =>
    cases failed
    have entered := l.entered x p
    rw [entry] at entered
    cases entered with
    | circular unknown bare again =>
      rw [rest.inProgress_eq_nil] at again
      cases again
    | ungenerated unknown bare idle unlinked run => cases generated_error run
  | @run x _ found entry ending =>
    obtain ⟨start, -⟩ := Stacked.enter_opened rest (Graph.get?_self found) entry (.singleton _)
    cases ending with
    | word => cases failed
    | fault walk move =>
      cases failed
      obtain ⟨stacked, -⟩ := walk.stacked start
      obtain ⟨v, again, circle⟩ := stacked.circle_of_failed move
      obtain ⟨lowest, last, same⟩ := walk.getLast_lexis
      have reach := stacked.reach_of_lowest last again
      rw [same, Graph.id_of_get? found] at reach
      exact ⟨v, reach, circle⟩

/-- An id that gets a word is one whose derivation comes to an end. -/
theorem AtRest.cycleFreeFrom_of_resolve {l : Lexicon} {p : Pass} {id : String} {w : Word}
    (rest : l.AtRest p) (word : (l.resolve id p).1 = .ok w) : l.graph.CycleFreeFrom id := by
  obtain ⟨after, -, known⟩ := rest.resolve id
  have grounded := after.coherent.grounded (known w word)
  intro v reach
  refine not_transGen_self_of_acc ?_
  induction reach with
  | refl => exact grounded
  | tail _ last ih => exact ih.inv last

/-- After any session, resolving an id comes to an end, within a number of turns that the size of the
graph bounds. A cycle that it reports is a circle of lexes without words that the derivation of the id
leads to. Where the derivation leads to such a circle, the id gets no word, and where it leads to none,
no cycle is reported. -/
theorem resolve_reports_cycles_exactly (l : Lexicon) (calls : List Call) (picks : Picks) (id : String) :
    let q := l.session calls { picks := picks }
    (∃ n ≤ totalWeight entryWeight l.graph.nodes + 1, EndsIn l.turn n (.asked id, q) (l.resolve id q)) ∧
      (∀ path, (l.resolve id q).1 = .error (.cycle path) →
        ∃ v, Relation.ReflTransGen l.graph.RestsOn id v ∧ Circle l.graph.RestsOn v path) ∧
      (∀ v, Relation.ReflTransGen l.graph.RestsOn id v → Relation.TransGen l.graph.RestsOn v v →
        ∀ w, (l.resolve id q).1 ≠ .ok w) ∧
      (l.graph.CycleFreeFrom id → ∀ path, (l.resolve id q).1 ≠ .error (.cycle path)) := by
  intro q
  have rest : l.AtRest q := ((l.atRest_fresh picks).session calls).1
  refine ⟨l.exists_endsIn_resolve id q, fun path => rest.resolve_circle, ?_, ?_⟩
  · intro v reach around w word
    exact rest.cycleFreeFrom_of_resolve word v reach around
  · intro free path failed
    obtain ⟨v, reach, circle⟩ := rest.resolve_circle failed
    exact free v reach circle.transGen

/-- The knot and the loop derive each other, and the end derives from the knot. -/
def noose : Lexicon where
  graph := {
    nodes := [
      { id := "end", etymons := [⟨"knot", [], 0⟩] },
      { id := "knot", etymons := [⟨"loop", [], 0⟩] },
      { id := "loop", etymons := [⟨"knot", [], 0⟩] }]
    ids_nodup := by decide }

/-- The cycle is reported from the knot on, where the end runs into it, although the loop was asked for
before. -/
theorem noose_end_circular :
    let q := noose.session [.resolve "loop", .resolveAll] {}
    (noose.resolve "end" q).1 = .error (.cycle ["knot", "loop", "knot"]) ∧
      ∃ v, Relation.ReflTransGen noose.graph.RestsOn "end" v ∧
        Circle noose.graph.RestsOn v ["knot", "loop", "knot"] := by
  intro q
  have failed : (noose.resolve "end" q).1 = .error (.cycle ["knot", "loop", "knot"]) := by
    decide +kernel
  exact ⟨failed, (resolve_reports_cycles_exactly noose _ {} "end").2.1 _ failed⟩

end Lexicon

end Etymology
