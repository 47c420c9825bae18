import Etymology.Proofs.Lexicon.Session

namespace Etymology

/-- The pass as entering a lexis leaves it. -/
@[simp] def Entry.pass : Entry → Pass
  | .known _ pass => pass
  | .opened _ pass => pass
  | .failed _ pass => pass

/-- The pass as a step leaves it. -/
@[simp] def Move.pass : Move → Pass
  | .absorbed _ pass => pass
  | .opened _ pass => pass
  | .finished _ pass => pass
  | .failed _ pass => pass

/-- The later pass has words for all that the earlier one has, and has made no further choice. -/
structure Pass.Quiet (p q : Pass) : Prop where
  words : ∀ {id}, p.words.contains id = true → q.words.contains id = true
  picks : q.picks = p.picks

namespace Pass.Quiet

theorem refl (p : Pass) : p.Quiet p := ⟨id, rfl⟩

theorem trans {p q r : Pass} (first : p.Quiet q) (second : q.Quiet r) : p.Quiet r :=
  ⟨fun known => second.words (first.words known), second.picks.trans first.picks⟩

theorem put {p q : Pass} {id : String} {w : Word} (words : q.words = p.words.put id w)
    (picks : q.picks = p.picks) : p.Quiet q :=
  ⟨fun known => by rw [words, Table.contains_put, known, Bool.or_true], picks⟩

end Pass.Quiet

namespace Lexicon

/-- Every lexis that is left to a phonetic rule has its word already. -/
def Supplied (l : Lexicon) (p : Pass) : Prop :=
  ∀ x ∈ l.graph.nodes, x.isGenerated = true → p.words.contains x.id = true

section Supplied

variable {l : Lexicon} {p q : Pass}

theorem supplied_of_settled (settled : ∀ x ∈ l.graph.nodes, x.isGenerated = false) (p : Pass) : l.Supplied p := by
  intro x member left
  rw [settled x member] at left
  cases left

theorem Supplied.quiet (supplied : l.Supplied p) (quiet : p.Quiet q) : l.Supplied q :=
  fun x member left => quiet.words (supplied x member left)

/-- A lexis that has neither a word, kept or its own, nor etymons has no key either, so that no choice is made. -/
theorem Supplied.generated_picks {x : Lexis} (supplied : l.Supplied p) (member : x ∈ l.graph.nodes)
    (unknown : p.words.get? x.id = none) (bare : x.literal? = none) (unlinked : x.etymons = []) (picks : Picks) :
    (l.generated x picks).2 = picks := by
  cases left : x.isGenerated with
  | false => rw [generated, if_pos (Lexis.falsy_of_given left bare unlinked)]
  | true =>
    rw [Table.get?_eq_none, supplied x member left] at unknown
    cases unknown

theorem Supplied.enter {x : Lexis} (supplied : l.Supplied p) (member : x ∈ l.graph.nodes) :
    p.Quiet (l.enter x p).pass := by
  have entered := l.entered x p
  generalize l.enter x p = entry at entered
  cases entered with
  | kept => exact .refl p
  | literal => exact .put rfl rfl
  | circular => exact .refl p
  | opened => exact ⟨id, rfl⟩
  | generated unknown bare _ unlinked run =>
    have same := supplied.generated_picks member unknown bare unlinked p.picks
    rw [run] at same
    exact .put rfl same
  | ungenerated unknown bare _ unlinked run =>
    have same := supplied.generated_picks member unknown bare unlinked p.picks
    rw [run] at same
    exact ⟨id, same⟩

theorem Supplied.advance (supplied : l.Supplied p) (f : Frame) : p.Quiet (l.advance f p).pass := by
  have moved := l.moved f p
  have entering : ∀ {id x}, l.graph.get? id = some x → p.Quiet (l.enter x p).pass :=
    fun found => supplied.enter (Graph.mem_of_get? found)
  generalize l.advance f p = move at moved
  cases moved with
  | finished => exact .put rfl rfl
  | unfinished => exact .refl p
  | dangling => exact .refl p
  | blocked _ found entry => simpa [entry] using entering found
  | opened _ found entry => simpa [entry] using entering found
  | absorbed _ found entry _ => simpa [entry] using entering found
  | refused _ found entry _ => simpa [entry] using entering found

theorem Supplied.run (supplied : l.Supplied p) (top : Frame) (below : List Frame) :
    p.Quiet (l.run top below p).2 := by
  have step := supplied.advance top
  fun_induction l.run top below p with
  | case1 top below p top' q move ih =>
    rw [move] at step
    exact step.trans (ih (supplied.quiet step) ((supplied.quiet step).advance top'))
  | case2 top below p inner q move ih =>
    rw [move] at step
    exact step.trans (ih (supplied.quiet step) ((supplied.quiet step).advance inner))
  | case3 top p w q move =>
    rw [move] at step
    exact step
  | case4 top p w q move next below ih =>
    rw [move] at step
    exact step.trans (ih (supplied.quiet step) ((supplied.quiet step).advance next))
  | case5 top below p fault q move =>
    rw [move] at step
    exact ⟨step.words, step.picks⟩

theorem Supplied.resolve (supplied : l.Supplied p) (id : String) : p.Quiet (l.resolve id p).2 := by
  unfold Lexicon.resolve
  split
  · exact .refl p
  · cases found : l.graph.get? id with
    | none =>
      simp only [Graph.get, found]
      exact .refl p
    | some x =>
      have entering := supplied.enter (Graph.mem_of_get? found)
      simp only [Graph.get, found]
      split
      · next w q entry => simpa [entry] using entering
      · next first q entry =>
        rw [entry] at entering
        exact entering.trans ((supplied.quiet entering).run first [])
      · next fault q entry => simpa [entry] using entering

/-- Whatever call is made, and however it ends. -/
theorem Supplied.after (supplied : l.Supplied p) (call : Call) : p.Quiet (call.after l p) :=
  after_invariant (fun q => p.Quiet q) (fun id _ quiet => quiet.trans ((supplied.quiet quiet).resolve id)) call p
    (.refl p)

theorem Supplied.render (supplied : l.Supplied p) (s : Selection) (condition : Option Predicate) :
    p.Quiet (l.render s condition p).2 := by
  have all := supplied.after .resolveAll
  simp only [Call.after] at all
  unfold Lexicon.render
  split
  · next found q run =>
    rw [run] at all
    exact all.trans ((supplied.quiet all).after (.records s condition))
  · next fault q run =>
    rw [run] at all
    exact all

end Supplied

section Generated

variable {l : Lexicon} {g : Generator} {x : Lexis}

/-- A lexis that is left to a phonetic rule gets its word from the phonology, with the next choices of the pass. -/
theorem resolve_of_isGenerated {p : Pass} (present : l.generator = some g) (member : x ∈ l.graph.nodes)
    (left : x.isGenerated = true) (unknown : p.words.get? x.id = none) (idle : x.id ∉ p.inProgress) :
    l.resolve x.id p = match g.createWordFor x.generate p.picks with
      | (.ok w, picks) => (.ok w, { p with picks := picks }.keep x.id w)
      | (.error fault, picks) => (.error fault, { p with picks := picks }) := by
  obtain ⟨bare, keyed, unlinked⟩ := Lexis.of_isGenerated left
  have found : l.graph.get x.id = .ok x := by rw [Graph.get, Graph.get?_of_mem member]
  have outside : p.inProgress.contains x.id = false := by simpa using idle
  obtain ⟨outcome, picks, run⟩ : ∃ outcome picks, g.createWordFor x.generate p.picks = (outcome, picks) := ⟨_, _, rfl⟩
  have made : l.generated x p.picks = (outcome, picks) := by
    rw [generated, keyed, if_neg Bool.false_ne_true, present]
    exact run
  rw [run]
  cases outcome with
  | ok w =>
    simp only [resolve, unknown, found, enter, bare, outside, unlinked, List.isEmpty_nil, made, Bool.false_eq_true,
      if_false, if_true]
  | error fault =>
    simp only [resolve, unknown, found, enter, bare, outside, unlinked, List.isEmpty_nil, made, Bool.false_eq_true,
      if_false, if_true]

/-- Each pass makes the choices for it again. -/
theorem picks_of_isGenerated (present : l.generator = some g) (member : x ∈ l.graph.nodes)
    (left : x.isGenerated = true) (picks : Picks) :
    (l.resolve x.id { picks := picks }).2.picks = (g.createWordFor x.generate picks).2 := by
  rw [resolve_of_isGenerated present member left rfl List.not_mem_nil]
  split
  · next made => rw [made]; rfl
  · next made => rw [made]

end Generated

end Lexicon

end Etymology
