import Etymology.Proofs.Lexicon.Alignment

namespace Etymology.Lexicon

/-- With all of its links behind it, a frame has derived its word from the words of its etymons. -/
theorem SoundFrame.derive_eq {l : Lexicon} {p : Pass} {f : Frame} (sound : l.SoundFrame p f)
    {word : String → Except Fault Word} (known : ∀ a w, p.wordOf a = .ok w → word a = .ok w) :
    l.derive word f.lexis = match l.absorb word f.lexis.id f.remaining with
      | .ok cs => l.agglutinated f.lexis (f.absorbed ++ cs)
      | .error fault => .error fault := by
  have contributed : ∀ c ∈ f.absorbed, l.Contributes word f.lexis.id c :=
    fun c member => (sound.contributed c member).mono known
  rw [derive, ← sound.links, absorb_contributed contributed]
  cases l.absorb word f.lexis.id f.remaining <;> rfl

theorem SoundFrame.ancestor_known {l : Lexicon} {p : Pass} {f : Frame} (sound : l.SoundFrame p f)
    {e : Etymon} (absorbed : e ∈ f.absorbed.map Contribution.link) :
    ∃ v, p.words.get? e.ancestor = some v := by
  obtain ⟨c, member, rfl⟩ := List.mem_map.mp absorbed
  obtain ⟨y, v, -, known, -, -⟩ := sound.contributed c member
  exact ⟨v, Pass.wordOf_eq_ok.mp known⟩

/-- A word that is known at once, or can be had at once, is accounted for. -/
theorem Coherent.enter_known {l : Lexicon} {p q : Pass} {x : Lexis} {w : Word} (coherent : l.Coherent p)
    (found : l.graph.get? x.id = some x) (entry : l.enter x p = .known w q) (more : p.Extends q) :
    l.Coherent q := by
  have entered := l.entered x p
  rw [entry] at entered
  cases entered with
  | kept known => exact coherent
  | literal unknown own => exact coherent.put found more rfl (.literal own) (acc_of_literal found own)
  | @generated _ picks unknown bare idle unlinked run =>
    obtain ⟨g, present, keyed, made⟩ := generated_ok run
    have account : l.Accounted ({ p with picks := picks }.keep x.id w) x w :=
      .generated bare unlinked keyed present made more.picks (.refl picks)
    refine coherent.put found more rfl account (acc_of_ancestors found ?_)
    rw [unlinked]
    intro e member
    cases member

theorem Coherent.enter_failed {l : Lexicon} {p q : Pass} {x : Lexis} {fault : Fault} (coherent : l.Coherent p)
    (entry : l.enter x p = .failed fault q) (more : p.Extends q) : l.Coherent q := by
  have entered := l.entered x p
  rw [entry] at entered
  cases entered with
  | circular => exact coherent
  | ungenerated => exact coherent.of_words_eq rfl more

/-- The word of a frame that is finished is accounted for by those of its etymons. -/
theorem Coherent.finished {l : Lexicon} {top : Frame} {p q : Pass} {w : Word} (coherent : l.Coherent p)
    (sound : l.SoundFrame p top) (move : l.advance top p = .finished w q) (more : p.Extends q) :
    l.Coherent q := by
  have moved := l.moved top p
  rw [move] at moved
  cases moved with
  | finished done joined =>
    have ancestors : ∀ e ∈ top.lexis.etymons, ∃ v, p.words.get? e.ancestor = some v := fun e link => by
      refine sound.ancestor_known ?_
      have links := sound.links
      rw [done, List.append_nil] at links
      rw [links]
      exact mem_orderedEtymons.mpr link
    have derived : l.derive p.wordOf top.lexis = .ok w := by
      rw [sound.derive_eq fun _ _ known => known, done]
      simpa [absorb] using joined
    have account : l.Accounted p top.lexis w := .derived sound.bare sound.linked ancestors derived
    refine coherent.put sound.found more rfl (account.mono more) ?_
    refine acc_of_ancestors sound.found fun e link => ?_
    obtain ⟨v, known⟩ := ancestors e link
    exact coherent.grounded known

section Stacked

variable {l : Lexicon} {frames below : List Frame} {top top' inner : Frame} {p q : Pass} {x : Lexis} {w : Word}
  {fault : Fault}

theorem Stacked.aligned (stacked : l.Stacked frames p) : l.Aligned frames p where
  sound := stacked.sound
  inProgress := stacked.inProgress
  distinct := stacked.distinct
  waiting := stacked.waiting

theorem Aligned.stacked (aligned : l.Aligned frames p) (coherent : l.Coherent p) : l.Stacked frames p where
  coherent := coherent
  sound := aligned.sound
  inProgress := aligned.inProgress
  distinct := aligned.distinct
  waiting := aligned.waiting

theorem Stacked.enter_known (stacked : l.Stacked frames p) (found : l.graph.get? x.id = some x)
    (entry : l.enter x p = .known w q) :
    l.Stacked frames q ∧ p.Extends q ∧ q.words.get? x.id = some w := by
  obtain ⟨after, more, known⟩ := stacked.aligned.enter_known found entry
  exact ⟨after.stacked (stacked.coherent.enter_known found entry more), more, known⟩

theorem Stacked.enter_opened (stacked : l.Stacked frames p) (found : l.graph.get? x.id = some x)
    (entry : l.enter x p = .opened inner q)
    (waiting : (⟨x, [], x.orderedEtymons⟩ :: frames).IsChain fun upper lower => WaitsFor lower upper) :
    l.Stacked (inner :: frames) q ∧ p.Extends q := by
  obtain ⟨after, more⟩ := stacked.aligned.enter_opened found entry waiting
  have started := of_enter_opened entry
  exact ⟨after.stacked (stacked.coherent.of_words_eq (started.1 ▸ rfl) more), more⟩

theorem Stacked.enter_failed (stacked : l.Stacked frames p) (entry : l.enter x p = .failed fault q) :
    l.Stacked frames q ∧ p.Extends q := by
  obtain ⟨after, more⟩ := stacked.aligned.enter_failed entry
  exact ⟨after.stacked (stacked.coherent.enter_failed entry more), more⟩

theorem Stacked.absorbed (stacked : l.Stacked (top :: below) p) (move : l.advance top p = .absorbed top' q) :
    l.Stacked (top' :: below) q ∧ p.Extends q := by
  obtain ⟨after, more⟩ := stacked.aligned.absorbed move
  have moved := l.moved top p
  rw [move] at moved
  cases moved with
  | absorbed pending found entry run =>
    exact ⟨after.stacked (stacked.coherent.enter_known (Graph.get?_self found) entry more), more⟩

theorem Stacked.opened (stacked : l.Stacked (top :: below) p) (move : l.advance top p = .opened inner q) :
    l.Stacked (inner :: top :: below) q ∧ p.Extends q := by
  obtain ⟨after, more⟩ := stacked.aligned.opened move
  have moved := l.moved top p
  rw [move] at moved
  cases moved with
  | opened pending found entry =>
    have started := of_enter_opened entry
    exact ⟨after.stacked (stacked.coherent.of_words_eq (started.1 ▸ rfl) more), more⟩

theorem Stacked.finished (stacked : l.Stacked (top :: below) p) (move : l.advance top p = .finished w q) :
    l.Stacked below q ∧ p.Extends q ∧ q.words.get? top.lexis.id = some w := by
  obtain ⟨after, more, known⟩ := stacked.aligned.finished move
  have coherent := stacked.coherent.finished (stacked.sound top List.mem_cons_self) move more
  exact ⟨after.stacked coherent, more, known⟩

theorem Stacked.failed (stacked : l.Stacked (top :: below) p) (move : l.advance top p = .failed fault q) :
    l.Stacked (top :: below) q ∧ p.Extends q := by
  obtain ⟨after, more⟩ := stacked.aligned.failed move
  refine ⟨after.stacked ?_, more⟩
  have moved := l.moved top p
  rw [move] at moved
  cases moved with
  | unfinished => exact stacked.coherent
  | dangling => exact stacked.coherent
  | blocked pending found entry => exact stacked.coherent.enter_failed entry more
  | refused pending found entry run => exact stacked.coherent.enter_known (Graph.get?_self found) entry more

theorem Stacked.abandon (stacked : l.Stacked frames p) :
    l.Stacked [] (p.abandon (frames.map fun f => f.lexis.id)) :=
  stacked.aligned.abandon.stacked (stacked.coherent.of_words_eq rfl ⟨fun known => known, .refl p.picks⟩)

end Stacked

/-- Whatever state a run goes through, its pass and its stack agree. -/
theorem Walk.stacked {l : Lexicon} {first : Frame} {entry p : Pass} {frames : List Frame}
    (walk : l.Walk first entry frames p) (start : l.Stacked [first] entry) :
    l.Stacked frames p ∧ entry.Extends p := by
  induction walk with
  | start => exact ⟨start, .refl entry⟩
  | absorbed _ move ih =>
    obtain ⟨stacked, more⟩ := ih.1.absorbed move
    exact ⟨stacked, ih.2.trans more⟩
  | opened _ move ih =>
    obtain ⟨stacked, more⟩ := ih.1.opened move
    exact ⟨stacked, ih.2.trans more⟩
  | finished _ move ih =>
    obtain ⟨stacked, more, -⟩ := ih.1.finished move
    exact ⟨stacked, ih.2.trans more⟩

/-- A run leaves no lexis in progress, whether it gives the word of its lexis or fails. -/
theorem Ending.stacked {l : Lexicon} {first : Frame} {entry : Pass} {result : Except Fault Word × Pass}
    (ending : l.Ending first entry result) (start : l.Stacked [first] entry) :
    l.Stacked [] result.2 ∧ entry.Extends result.2 ∧
      ∀ w, result.1 = .ok w → result.2.words.get? first.lexis.id = some w := by
  cases ending with
  | @word top p w q walk move =>
    obtain ⟨stacked, more⟩ := walk.stacked start
    obtain ⟨frame, last, same⟩ := walk.getLast_lexis
    obtain rfl : top = frame := by simpa using last
    obtain ⟨rest, further, known⟩ := stacked.finished move
    refine ⟨rest, more.trans further, ?_⟩
    rintro v ⟨⟩
    rwa [← same]
  | fault walk move =>
    obtain ⟨stacked, more⟩ := walk.stacked start
    obtain ⟨failed, further⟩ := stacked.failed move
    refine ⟨failed.abandon, more.trans ⟨further.words, further.picks⟩, ?_⟩
    rintro v ⟨⟩

end Etymology.Lexicon
