import Etymology.Proofs.Lexicon.Coherence
import Mathlib.Data.List.Chain

namespace Etymology.Lexicon

theorem extends_of_put {p q : Pass} {id : String} {w : Word} (unknown : p.words.get? id = none)
    (words : q.words = p.words.put id w) (picks : p.picks.Precedes q.picks) : p.Extends q := by
  refine ⟨?_, picks⟩
  intro a v known
  have other : id ≠ a := by
    rintro rfl
    rw [unknown] at known
    cases known
  rw [words, Table.get?_put_of_ne _ _ other, known]

/-- The lexes in progress are those of the stack, from the lowest frame on, each of them once and without a
word; every frame holds what its links have contributed so far, and waits for the frame above it. -/
structure Aligned (l : Lexicon) (frames : List Frame) (p : Pass) : Prop where
  sound : ∀ f ∈ frames, l.SoundFrame p f
  inProgress : p.inProgress = (frames.map fun f => f.lexis.id).reverse
  distinct : (frames.map fun f => f.lexis.id).Nodup
  waiting : frames.IsChain fun upper lower => WaitsFor lower upper

section Aligned

variable {l : Lexicon} {frames below : List Frame} {top top' inner : Frame} {p q : Pass} {id : String} {x : Lexis}
  {w : Word} {fault : Fault}

theorem aligned_nil_iff : l.Aligned [] p ↔ p.inProgress = [] :=
  ⟨fun aligned => aligned.inProgress, fun idle => ⟨nofun, idle, .nil, .nil⟩⟩

theorem Aligned.mem_inProgress (aligned : l.Aligned frames p) :
    id ∈ p.inProgress ↔ ∃ f ∈ frames, f.lexis.id = id := by
  rw [aligned.inProgress, List.mem_reverse, List.mem_map]

theorem Aligned.tail (aligned : l.Aligned (top :: below) p) :
    below.IsChain fun upper lower => WaitsFor lower upper :=
  (List.isChain_cons.mp aligned.waiting).2

theorem Aligned.mono (aligned : l.Aligned frames p) (more : p.Extends q) (inProgress : q.inProgress = p.inProgress)
    (unsettled : ∀ f ∈ frames, q.words.get? f.lexis.id = none) : l.Aligned frames q where
  sound := fun f member => (aligned.sound f member).mono more (unsettled f member)
  inProgress := inProgress.trans aligned.inProgress
  distinct := aligned.distinct
  waiting := aligned.waiting

/-- A word found for a lexis outside of the stack leaves the stack as it is. -/
theorem Aligned.put (aligned : l.Aligned frames p) (more : p.Extends q) (words : q.words = p.words.put id w)
    (inProgress : q.inProgress = p.inProgress) (outside : ∀ f ∈ frames, f.lexis.id ≠ id) :
    l.Aligned frames q := by
  refine aligned.mono more inProgress fun f member => ?_
  rw [words, Table.get?_put_of_ne _ _ (Ne.symm (outside f member)), (aligned.sound f member).unsettled]

/-- So do choices alone. -/
theorem Aligned.of_words_eq (aligned : l.Aligned frames p) (words : q.words = p.words)
    (inProgress : q.inProgress = p.inProgress) (more : p.Extends q) : l.Aligned frames q := by
  refine aligned.mono more inProgress fun f member => ?_
  rw [words, (aligned.sound f member).unsettled]

/-- A word that is known at once, or can be had at once, is kept from then on. -/
theorem Aligned.enter_known (aligned : l.Aligned frames p) (found : l.graph.get? x.id = some x)
    (entry : l.enter x p = .known w q) :
    l.Aligned frames q ∧ p.Extends q ∧ q.words.get? x.id = some w := by
  have entered := l.entered x p
  rw [entry] at entered
  cases entered with
  | kept known => exact ⟨aligned, .refl p, known⟩
  | literal unknown own =>
    have more : p.Extends (p.keep x.id w) := extends_of_put unknown rfl (.refl p.picks)
    refine ⟨aligned.put more rfl rfl ?_, more, Table.get?_put_self _ _ _⟩
    -- A frame with its id would be of the same lexis, which has no word then.
    intro f member same
    have sound := aligned.sound f member
    have atFrame := sound.found
    rw [same, found] at atFrame
    have bare := sound.bare
    rw [← Option.some.inj atFrame, own] at bare
    cases bare
  | @generated _ picks unknown bare idle unlinked run =>
    have forward : p.picks.Precedes picks := by
      have := l.precedes_generated x p.picks
      rwa [run] at this
    have more : p.Extends ({ p with picks := picks }.keep x.id w) := extends_of_put unknown rfl forward
    refine ⟨aligned.put more rfl rfl ?_, more, Table.get?_put_self _ _ _⟩
    intro f member same
    exact idle (aligned.mem_inProgress.mpr ⟨f, member, same⟩)

/-- A lexis without a word that is not in progress goes on top of the stack. -/
theorem Aligned.enter_opened (aligned : l.Aligned frames p) (found : l.graph.get? x.id = some x)
    (entry : l.enter x p = .opened inner q)
    (waiting : (⟨x, [], x.orderedEtymons⟩ :: frames).IsChain fun upper lower => WaitsFor lower upper) :
    l.Aligned (inner :: frames) q ∧ p.Extends q := by
  have entered := l.entered x p
  rw [entry] at entered
  cases entered with
  | opened unknown bare idle linked =>
    refine ⟨⟨?_, ?_, ?_, waiting⟩, fun known => known, .refl p.picks⟩
    · intro f member
      rcases List.mem_cons.mp member with rfl | below
      · exact ⟨found, bare, linked, unknown, rfl, fun c member => by cases member⟩
      · have sound := aligned.sound f below
        exact sound.mono ⟨fun known => known, .refl p.picks⟩ sound.unsettled
    · simp only [Pass.start, aligned.inProgress, List.map_cons, List.reverse_cons]
    · rw [List.map_cons, List.nodup_cons]
      refine ⟨fun member => idle ?_, aligned.distinct⟩
      rw [aligned.inProgress]
      exact List.mem_reverse.mpr member

theorem Aligned.enter_failed (aligned : l.Aligned frames p) (entry : l.enter x p = .failed fault q) :
    l.Aligned frames q ∧ p.Extends q := by
  have entered := l.entered x p
  rw [entry] at entered
  cases entered with
  | circular => exact ⟨aligned, .refl p⟩
  | @ungenerated _ picks unknown bare idle unlinked run =>
    have forward : p.picks.Precedes picks := by
      have := l.precedes_generated x p.picks
      rwa [run] at this
    have more : p.Extends { p with picks := picks } := ⟨fun known => known, forward⟩
    exact ⟨aligned.of_words_eq rfl rfl more, more⟩

theorem Aligned.absorbed (aligned : l.Aligned (top :: below) p) (move : l.advance top p = .absorbed top' q) :
    l.Aligned (top' :: below) q ∧ p.Extends q := by
  have moved := l.moved top p
  rw [move] at moved
  cases moved with
  | @absorbed link links x w _ c pending found entry run =>
    have same := Graph.id_of_get? found
    obtain ⟨after, more, known⟩ := aligned.enter_known (Graph.get?_self found) entry
    have sound := after.sound top List.mem_cons_self
    refine ⟨⟨?_, after.inProgress, after.distinct, ?_⟩, more⟩
    · intro f member
      rcases List.mem_cons.mp member with rfl | inside
      · refine ⟨sound.found, sound.bare, sound.linked, sound.unsettled, ?_, ?_⟩
        · simpa [pending] using sound.links
        · intro d absorbed
          rcases List.mem_append.mp absorbed with old | new
          · exact sound.contributed d old
          · obtain rfl := List.mem_singleton.mp new
            exact ⟨x, w, found, Pass.wordOf_eq_ok.mpr (same ▸ known), rfl, run⟩
      · exact after.sound f (List.mem_cons_of_mem top inside)
    · exact List.isChain_cons.mpr ⟨(List.isChain_cons.mp after.waiting).1, after.tail⟩

theorem Aligned.opened (aligned : l.Aligned (top :: below) p) (move : l.advance top p = .opened inner q) :
    l.Aligned (inner :: top :: below) q ∧ p.Extends q := by
  have moved := l.moved top p
  rw [move] at moved
  cases moved with
  | @opened link links x _ _ pending found entry =>
    have waits : WaitsFor top ⟨x, [], x.orderedEtymons⟩ :=
      ⟨link, links, pending, (Graph.id_of_get? found).symm⟩
    exact aligned.enter_opened (Graph.get?_self found) entry (.cons_cons waits aligned.waiting)

/-- A frame that is finished leaves the stack. -/
theorem Aligned.finished (aligned : l.Aligned (top :: below) p) (move : l.advance top p = .finished w q) :
    l.Aligned below q ∧ p.Extends q ∧ q.words.get? top.lexis.id = some w := by
  have moved := l.moved top p
  rw [move] at moved
  cases moved with
  | finished done joined =>
    have sound := aligned.sound top List.mem_cons_self
    have outside := (List.nodup_cons.mp aligned.distinct).1
    have more : p.Extends (p.finish top.lexis.id w) := extends_of_put sound.unsettled rfl (.refl p.picks)
    refine ⟨⟨?_, ?_, (List.nodup_cons.mp aligned.distinct).2, aligned.tail⟩, more, Table.get?_put_self _ _ _⟩
    · intro f member
      have other : top.lexis.id ≠ f.lexis.id := fun same =>
        outside (List.mem_map.mpr ⟨f, member, same.symm⟩)
      have below := aligned.sound f (List.mem_cons_of_mem top member)
      exact below.mono more ((Table.get?_put_of_ne _ _ other).trans below.unsettled)
    · have kept : ∀ id ∈ below.map (fun f => f.lexis.id), (id != top.lexis.id) = true := by
        intro id member
        rw [bne_iff_ne]
        rintro rfl
        exact outside member
      simp only [Pass.finish, aligned.inProgress, List.map_cons, List.reverse_cons, List.filter_append,
        List.filter_reverse, List.filter_eq_self.mpr kept]
      simp

theorem Aligned.failed (aligned : l.Aligned (top :: below) p) (move : l.advance top p = .failed fault q) :
    l.Aligned (top :: below) q ∧ p.Extends q := by
  have moved := l.moved top p
  rw [move] at moved
  cases moved with
  | unfinished => exact ⟨aligned, .refl p⟩
  | dangling => exact ⟨aligned, .refl p⟩
  | blocked pending found entry => exact aligned.enter_failed entry
  | refused pending found entry run =>
    obtain ⟨after, more, -⟩ := aligned.enter_known (Graph.get?_self found) entry
    exact ⟨after, more⟩

/-- With its whole stack abandoned, a pass has nothing in progress. -/
theorem Aligned.abandon (aligned : l.Aligned frames p) :
    l.Aligned [] (p.abandon (frames.map fun f => f.lexis.id)) := by
  rw [aligned_nil_iff, Pass.abandon, aligned.inProgress, List.filter_eq_nil_iff]
  intro id member
  simpa using member

end Aligned

end Etymology.Lexicon
