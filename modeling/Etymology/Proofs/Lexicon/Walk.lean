import Etymology.Proofs.Lexicon.Derivation

namespace Etymology.Lexicon

/-- What comes of entering a lexis, and when. -/
inductive Entered (l : Lexicon) (x : Lexis) (p : Pass) : Entry → Prop
  | kept {w} : p.words.get? x.id = some w → Entered l x p (.known w p)
  | literal {w} : p.words.get? x.id = none → x.literal? = some w →
      Entered l x p (.known w (p.keep x.id w))
  | circular : p.words.get? x.id = none → x.literal? = none → x.id ∈ p.inProgress →
      Entered l x p (.failed (.cycle (p.chainFrom x.id)) p)
  | generated {w picks} : p.words.get? x.id = none → x.literal? = none → x.id ∉ p.inProgress →
      x.etymons = [] → l.generated x p.picks = (.ok w, picks) →
      Entered l x p (.known w ({ p with picks := picks }.keep x.id w))
  | ungenerated {fault picks} : p.words.get? x.id = none → x.literal? = none → x.id ∉ p.inProgress →
      x.etymons = [] → l.generated x p.picks = (.error fault, picks) →
      Entered l x p (.failed fault { p with picks := picks })
  | opened : p.words.get? x.id = none → x.literal? = none → x.id ∉ p.inProgress → x.etymons ≠ [] →
      Entered l x p (.opened ⟨x, [], x.orderedEtymons⟩ (p.start x.id))

theorem entered (l : Lexicon) (x : Lexis) (p : Pass) : l.Entered x p (l.enter x p) := by
  unfold enter
  split
  · next w known => exact .kept known
  · next unknown =>
    split
    · next w literal => exact .literal unknown literal
    · next bare =>
      split
      · next again => exact .circular unknown bare (by simpa using again)
      · next fresh =>
        have idle : x.id ∉ p.inProgress := by simpa using fresh
        split
        · next empty =>
          have unlinked := List.isEmpty_iff.mp empty
          split
          · next w picks run => exact .generated unknown bare idle unlinked run
          · next fault picks run => exact .ungenerated unknown bare idle unlinked run
        · next linked =>
          exact .opened unknown bare idle fun none => linked (List.isEmpty_iff.mpr none)

/-- What one step makes of the frame on top of the stack, and when. -/
inductive Moved (l : Lexicon) (f : Frame) (p : Pass) : Move → Prop
  | finished {w} : f.remaining = [] → l.agglutinated f.lexis f.absorbed = .ok w →
      Moved l f p (.finished w (p.finish f.lexis.id w))
  | unfinished {fault} : f.remaining = [] → l.agglutinated f.lexis f.absorbed = .error fault →
      Moved l f p (.failed fault p)
  | dangling {link links} : f.remaining = link :: links → l.graph.get? link.ancestor = none →
      Moved l f p (.failed (.unknownReference link.ancestor .lexis (some f.lexis.id)) p)
  | blocked {link links x fault q} : f.remaining = link :: links →
      l.graph.get? link.ancestor = some x → l.enter x p = .failed fault q → Moved l f p (.failed fault q)
  | opened {link links x inner q} : f.remaining = link :: links →
      l.graph.get? link.ancestor = some x → l.enter x p = .opened inner q → Moved l f p (.opened inner q)
  | absorbed {link links x w q c} : f.remaining = link :: links →
      l.graph.get? link.ancestor = some x → l.enter x p = .known w q →
      l.pipeline f.lexis.id link (x.withWord w) w = .ok c →
      Moved l f p (.absorbed { f with
        absorbed := f.absorbed ++ [⟨link, x.withWord w, c⟩], remaining := links } q)
  | refused {link links x w q fault} : f.remaining = link :: links →
      l.graph.get? link.ancestor = some x → l.enter x p = .known w q →
      l.pipeline f.lexis.id link (x.withWord w) w = .error fault → Moved l f p (.failed fault q)

theorem moved (l : Lexicon) (f : Frame) (p : Pass) : l.Moved f p (l.advance f p) := by
  unfold advance
  simp only [Frame.sources, Frame.contributions, joined_eq_agglutinated, contribution_eq_pipeline]
  split
  · next pending =>
    split
    · next w run => exact .finished pending run
    · next fault run => exact .unfinished pending run
  · next link links pending =>
    split
    · next absent => exact .dangling pending absent
    · next x found =>
      split
      · next entry => exact .blocked pending found entry
      · next entry => exact .opened pending found entry
      · next w q entry =>
        split
        · next c run => exact .absorbed pending found entry run
        · next fault run => exact .refused pending found entry run

/-- The stacks, from the top frame on, and passes that a run from one frame goes through. -/
inductive Walk (l : Lexicon) (first : Frame) (entry : Pass) : List Frame → Pass → Prop
  | start : Walk l first entry [first] entry
  | absorbed {top below p top' q} : Walk l first entry (top :: below) p →
      l.advance top p = .absorbed top' q → Walk l first entry (top' :: below) q
  | opened {top below p inner q} : Walk l first entry (top :: below) p →
      l.advance top p = .opened inner q → Walk l first entry (inner :: top :: below) q
  | finished {top next below p w q} : Walk l first entry (top :: next :: below) p →
      l.advance top p = .finished w q → Walk l first entry (next :: below) q

/-- How a run ends: the lowest frame gets its word, or the top frame of the stack fails. -/
inductive Ending (l : Lexicon) (first : Frame) (entry : Pass) : Except Fault Word × Pass → Prop
  | word {top p w q} : l.Walk first entry [top] p → l.advance top p = .finished w q →
      Ending l first entry (.ok w, q)
  | fault {top below p fault q} : l.Walk first entry (top :: below) p →
      l.advance top p = .failed fault q →
      Ending l first entry (.error fault, q.abandon ((top :: below).map fun f => f.lexis.id))

theorem Walk.ending {l : Lexicon} {first top : Frame} {entry p : Pass} {below : List Frame}
    (walk : l.Walk first entry (top :: below) p) : l.Ending first entry (l.run top below p) := by
  fun_induction l.run top below p with
  | case1 top below p top' q move ih => exact ih (walk.absorbed move)
  | case2 top below p inner q move ih => exact ih (walk.opened move)
  | case3 top p w q move => exact .word walk move
  | case4 top p w q move next below ih => exact ih (walk.finished move)
  | case5 top below p fault q move => exact .fault walk move

theorem run_ending (l : Lexicon) (first : Frame) (entry : Pass) :
    l.Ending first entry (l.run first [] entry) :=
  Walk.ending .start

/-- What comes of resolving an id, and when. -/
inductive Resolved (l : Lexicon) (id : String) (p : Pass) : Except Fault Word × Pass → Prop
  | kept {w} : p.words.get? id = some w → Resolved l id p (.ok w, p)
  | absent : p.words.get? id = none → l.graph.get? id = none →
      Resolved l id p (.error (.unknownReference id .lexis none), p)
  | known {x w q} : l.graph.get? id = some x → l.enter x p = .known w q → Resolved l id p (.ok w, q)
  | failed {x fault q} : l.graph.get? id = some x → l.enter x p = .failed fault q →
      Resolved l id p (.error fault, q)
  | run {x result} : l.graph.get? id = some x →
      l.enter x p = .opened ⟨x, [], x.orderedEtymons⟩ (p.start x.id) →
      l.Ending ⟨x, [], x.orderedEtymons⟩ (p.start x.id) result → Resolved l id p result

theorem resolved (l : Lexicon) (id : String) (p : Pass) : l.Resolved id p (l.resolve id p) := by
  unfold resolve
  split
  · next w known => exact .kept known
  · next unknown =>
    cases found : l.graph.get? id with
    | none =>
      simp only [Graph.get, found]
      exact .absent unknown found
    | some x =>
      simp only [Graph.get, found]
      split
      · next w q entry => exact .known found entry
      · next first q entry =>
        have entered := l.entered x p
        rw [entry] at entered
        cases entered
        exact .run found entry (l.run_ending _ _)
      · next fault q entry => exact .failed found entry

/-- The lowest frame of the stack is always that of the lexis the run began with. -/
theorem Walk.getLast_lexis {l : Lexicon} {first : Frame} {entry p : Pass} {frames : List Frame}
    (walk : l.Walk first entry frames p) :
    ∃ frame, frames.getLast? = some frame ∧ frame.lexis = first.lexis := by
  induction walk with
  | start => exact ⟨first, rfl, rfl⟩
  | @absorbed top below p top' q _ move ih =>
    have steps := l.moved top p
    rw [move] at steps
    cases steps
    obtain ⟨frame, last, same⟩ := ih
    cases below with
    | nil =>
      obtain rfl : top = frame := by simpa using last
      exact ⟨_, rfl, same⟩
    | cons next below => exact ⟨frame, by simpa using last, same⟩
  | opened _ _ ih =>
    obtain ⟨frame, last, same⟩ := ih
    exact ⟨frame, by simpa using last, same⟩
  | finished _ _ ih =>
    obtain ⟨frame, last, same⟩ := ih
    exact ⟨frame, by simpa using last, same⟩

end Etymology.Lexicon
