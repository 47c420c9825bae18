import Etymology.Proofs.Lexicon.Recursion
import Etymology.Proofs.Lexicon.Session

namespace Etymology.Lexicon

/-- The lexes without a word and without etymons have settled outcomes: a word that the pass keeps,
or a fault that no choice avoids. -/
def Settles (l : Lexicon) (leaf : Lexis → Except Fault Word) (p : Pass) : Prop :=
  ∀ ⦃id x⦄, l.graph.get? id = some x → x.literal? = none → x.etymons = [] →
    (∃ w, p.words.get? id = some w ∧ leaf x = .ok w) ∨
      (∃ fault, leaf x = .error fault ∧ ∀ picks, (l.generated x picks).1 = .error fault)

theorem Settles.mono {l : Lexicon} {leaf : Lexis → Except Fault Word} {p q : Pass}
    (settles : l.Settles leaf p) (more : p.Extends q) : l.Settles leaf q := by
  intro id x found bare unlinked
  rcases settles found bare unlinked with ⟨w, kept, word⟩ | never
  · exact .inl ⟨w, more.words kept, word⟩
  · exact .inr never

/-- Without phonetic rules no choice is ever made. -/
theorem settles_wordless {l : Lexicon} (silent : l.generator = none) (p : Pass) :
    l.Settles wordless p := by
  intro id x found bare unlinked
  refine .inr ?_
  by_cases falsy : x.generate.isFalsy = true
  · exact ⟨.underspecified x.id, by simp [wordless, falsy], fun picks => by simp [generated, falsy]⟩
  · exact ⟨.unknownKey x.generate, by simp [wordless, falsy], fun picks => by
      simp [generated, falsy, silent]⟩

/-- Nor is one where no word is left to phonetic rules. -/
theorem settles_of_settled {l : Lexicon} (settled : ∀ x ∈ l.graph.nodes, x.isGenerated = false) (p : Pass) :
    l.Settles wordless p := by
  intro id x found bare unlinked
  have falsy := Lexis.falsy_of_given (settled x (Graph.mem_of_get? found)) bare unlinked
  exact .inr ⟨.underspecified x.id, by rw [wordless, if_pos falsy], fun picks => by rw [generated, if_pos falsy]⟩

/-- A word kept for a lexis without etymons is the word that it is settled to have. -/
theorem Settles.leaf_eq {l : Lexicon} {leaf : Lexis → Except Fault Word} {p : Pass} {id : String}
    {x : Lexis} {w : Word} (settles : l.Settles leaf p) (found : l.graph.get? id = some x)
    (bare : x.literal? = none) (unlinked : x.etymons = []) (kept : p.words.get? id = some w)
    (account : l.Accounted p x w) : leaf x = .ok w := by
  rcases settles found bare unlinked with ⟨v, known, word⟩ | ⟨fault, -, never⟩
  · rw [word, ← Option.some.inj (known.symm.trans kept)]
  · cases account with
    | literal own => simp_all
    | @generated g before after _ _ keyed present run _ _ =>
      have made := never before
      have unkeyed : x.generate.isFalsy = false := by simpa [Value.isTruthy] using keyed
      simp [generated, unkeyed, present, run] at made
    | derived _ linked _ _ => exact absurd unlinked linked

/-- Whatever a kept lexis leads to is kept as well. -/
theorem Coherent.kept_of_reach {l : Lexicon} {p : Pass} {a b : String} (coherent : l.Coherent p)
    (reach : Relation.ReflTransGen l.graph.RestsOn a b) (kept : ∃ w, p.words.get? a = some w) :
    ∃ w, p.words.get? b = some w := by
  induction reach with
  | refl => exact kept
  | @tail b c _ rests ih =>
    obtain ⟨w, atB⟩ := ih
    obtain ⟨x, found, account⟩ := coherent.accounted atB
    obtain ⟨y, -, atY, -, bare, -, e, link, rfl⟩ := rests
    obtain rfl : x = y := Option.some.inj (found.symm.trans atY)
    cases account with
    | literal own => simp_all
    | generated _ unlinked _ _ _ _ _ => simp [unlinked] at link
    | derived _ _ ancestors _ => exact ancestors e link

/-- A word kept is what its derivation means, beside any path that the derivation does not touch.
The induction is on the derivation, which ends because what is kept is grounded. -/
theorem Coherent.meaning_of_kept {l : Lexicon} {leaf : Lexis → Except Fault Word} {p : Pass}
    {id : String} {w : Word} {path : List String} (coherent : l.Coherent p) (settles : l.Settles leaf p)
    (kept : p.words.get? id = some w)
    (apart : ∀ b ∈ path, ¬ Relation.ReflTransGen l.graph.RestsOn id b) :
    l.meaning leaf path id = .ok w := by
  have grounded := coherent.grounded kept
  induction grounded generalizing w path with
  | intro id below ih =>
    obtain ⟨x, found, account⟩ := coherent.accounted kept
    have fresh : id ∉ path := fun again => apart id again .refl
    cases literal : x.literal? with
    | some v =>
      rw [meaning_literal found literal]
      cases account <;> simp_all
    | none =>
      by_cases unlinked : x.etymons = []
      · rw [meaning_leaf found literal fresh unlinked]
        exact settles.leaf_eq found literal unlinked kept account
      · cases account with
        | literal own => simp_all
        | generated _ empty _ _ _ _ _ => exact absurd empty unlinked
        | derived _ _ ancestors run =>
          rw [meaning_derived found literal fresh unlinked, ← run]
          refine derive_congr (fun _ _ => rfl) fun e link => ?_
          obtain ⟨v, known⟩ := ancestors e link
          rw [Pass.wordOf_eq_ok.mpr known]
          obtain ⟨y, atY, accountY⟩ := coherent.accounted known
          cases literalY : y.literal? with
          | some u =>
            rw [meaning_literal atY literalY]
            cases accountY <;> simp_all
          | none =>
            have rests : l.graph.RestsOn id e.ancestor :=
              ⟨x, y, found, atY, literal, literalY, e, link, rfl⟩
            refine ih e.ancestor rests known ?_
            -- The longer path is apart from the ancestor too, or `id` would lead back to itself.
            intro b onPath reach
            rcases List.mem_append.mp onPath with before | last
            · exact apart b before (.head rests reach)
            · obtain rfl := List.mem_singleton.mp last
              exact not_transGen_self_of_acc (coherent.grounded kept) (.head' rests reach)

/-- In particular beside the lexes in progress, which have no word yet. -/
theorem Coherent.meaning_of_wordOf {l : Lexicon} {leaf : Lexis → Except Fault Word} {p : Pass}
    {path : List String} (coherent : l.Coherent p) (settles : l.Settles leaf p)
    (unsettled : ∀ b ∈ path, p.words.get? b = none) {a : String} {w : Word}
    (known : p.wordOf a = .ok w) : l.meaning leaf path a = .ok w := by
  have kept := Pass.wordOf_eq_ok.mp known
  refine coherent.meaning_of_kept settles kept ?_
  intro b onPath reach
  obtain ⟨v, keptB⟩ := coherent.kept_of_reach reach ⟨w, kept⟩
  rw [unsettled b onPath] at keptB
  cases keptB

/-- The lexes of a stack, from the lowest on. -/
def stackPath (frames : List Frame) : List String :=
  (frames.map fun f => f.lexis.id).reverse

theorem stackPath_cons (top : Frame) (below : List Frame) :
    stackPath (top :: below) = stackPath below ++ [top.lexis.id] := by
  simp only [stackPath, List.map_cons, List.reverse_cons]

theorem mem_stackPath {frames : List Frame} {id : String} :
    id ∈ stackPath frames ↔ ∃ f ∈ frames, f.lexis.id = id := by
  rw [stackPath, List.mem_reverse, List.mem_map]

theorem not_mem_stackPath {top : Frame} {below : List Frame}
    (distinct : ((top :: below).map fun f => f.lexis.id).Nodup) : top.lexis.id ∉ stackPath below := by
  intro again
  obtain ⟨f, member, same⟩ := mem_stackPath.mp again
  exact (List.nodup_cons.mp distinct).1 (List.mem_map.mpr ⟨f, member, same⟩)

/-- No lexis of a stack has a word yet. -/
theorem unsettled_of_sound {l : Lexicon} {frames : List Frame} {p : Pass}
    (sound : ∀ f ∈ frames, l.SoundFrame p f) : ∀ b ∈ stackPath frames, p.words.get? b = none := by
  intro b onPath
  obtain ⟨f, member, rfl⟩ := mem_stackPath.mp onPath
  exact (sound f member).unsettled

/-- What the lexis of a frame means is decided by the links that the frame still has to follow. -/
theorem SoundFrame.meaning_eq {l : Lexicon} {leaf : Lexis → Except Fault Word} {p : Pass} {f : Frame}
    {path : List String} (sound : l.SoundFrame p f) (coherent : l.Coherent p)
    (settles : l.Settles leaf p) (fresh : f.lexis.id ∉ path)
    (unsettled : ∀ b ∈ path ++ [f.lexis.id], p.words.get? b = none) :
    l.meaning leaf path f.lexis.id =
      match l.absorb (l.meaning leaf (path ++ [f.lexis.id])) f.lexis.id f.remaining with
      | .ok cs => l.agglutinated f.lexis (f.absorbed ++ cs)
      | .error fault => .error fault := by
  rw [meaning_derived sound.found sound.bare fresh sound.linked]
  exact sound.derive_eq fun a w known => coherent.meaning_of_wordOf settles unsettled known

/-- A fault in the derivation of the top lexis is the fault of the lowest one: every frame waits for
the one above it, and all that it has absorbed before went well. -/
theorem meaning_lowest_of_fault {l : Lexicon} {leaf : Lexis → Except Fault Word} {p : Pass}
    {top : Frame} {below : List Frame} {fault : Fault} (coherent : l.Coherent p)
    (settles : l.Settles leaf p) (sound : ∀ f ∈ top :: below, l.SoundFrame p f)
    (distinct : ((top :: below).map fun f => f.lexis.id).Nodup)
    (waiting : (top :: below).IsChain fun upper lower => WaitsFor lower upper)
    (fails : l.meaning leaf (stackPath below) top.lexis.id = .error fault) :
    ∀ lowest ∈ (top :: below).getLast?, l.meaning leaf [] lowest.lexis.id = .error fault := by
  induction below generalizing top with
  | nil =>
    intro lowest last
    obtain rfl : top = lowest := by simpa using last
    exact fails
  | cons next below ih =>
    intro lowest last
    obtain ⟨waits, rest⟩ := List.isChain_cons_cons.mp waiting
    obtain ⟨link, links, pending, leads⟩ := waits
    have inner := sound next (List.mem_cons_of_mem top List.mem_cons_self)
    have later : ∀ f ∈ next :: below, l.SoundFrame p f := fun f member =>
      sound f (List.mem_cons_of_mem top member)
    have apart := (List.nodup_cons.mp distinct).2
    have unsettled := unsettled_of_sound later
    rw [stackPath_cons] at unsettled
    have found := (sound top List.mem_cons_self).found
    rw [← leads] at fails found
    refine ih later apart rest ?_ lowest (by simpa using last)
    rw [inner.meaning_eq coherent settles (not_mem_stackPath apart) unsettled, pending, ← stackPath_cons]
    simp only [absorb, found, fails]

section Top

variable {l : Lexicon} {leaf : Lexis → Except Fault Word} {top : Frame} {below : List Frame} {p q : Pass}

theorem Stacked.meaning_top (stacked : l.Stacked (top :: below) p) (settles : l.Settles leaf p) :
    l.meaning leaf (stackPath below) top.lexis.id =
      match l.absorb (l.meaning leaf (stackPath (top :: below))) top.lexis.id top.remaining with
      | .ok cs => l.agglutinated top.lexis (top.absorbed ++ cs)
      | .error fault => .error fault := by
  have sound := stacked.sound top List.mem_cons_self
  have unsettled := unsettled_of_sound stacked.sound
  rw [stackPath_cons] at unsettled ⊢
  exact sound.meaning_eq stacked.coherent settles (not_mem_stackPath stacked.distinct) unsettled

theorem Stacked.meaning_of_finished {w : Word} (stacked : l.Stacked (top :: below) p)
    (settles : l.Settles leaf p) (move : l.advance top p = .finished w q) :
    l.meaning leaf (stackPath below) top.lexis.id = .ok w := by
  have moved := l.moved top p
  rw [move] at moved
  cases moved with
  | finished done joined =>
    rw [stacked.meaning_top settles, done]
    simpa [absorb] using joined

/-- A lexis that cannot be entered has the fault of its derivation, which knows of the same lexes in
progress. -/
theorem Stacked.meaning_of_enter_failed {frames : List Frame} {x : Lexis} {fault : Fault}
    (stacked : l.Stacked frames p) (settles : l.Settles leaf p) (found : l.graph.get? x.id = some x)
    (entry : l.enter x p = .failed fault q) :
    l.meaning leaf (stackPath frames) x.id = .error fault := by
  have path : p.inProgress = stackPath frames := stacked.inProgress
  have entered := l.entered x p
  rw [entry] at entered
  cases entered with
  | circular unknown bare again =>
    rw [path] at again
    rw [meaning_cycle found bare again, Pass.chainFrom, path]
  | ungenerated unknown bare idle unlinked run =>
    rw [path] at idle
    rw [meaning_leaf found bare idle unlinked]
    rcases settles found bare unlinked with ⟨v, known, -⟩ | ⟨cause, word, never⟩
    · rw [unknown] at known
      cases known
    · have same := never p.picks
      rw [run] at same
      rw [word, Except.error.inj same]

theorem Stacked.meaning_of_failed {fault : Fault} (stacked : l.Stacked (top :: below) p)
    (settles : l.Settles leaf p) (move : l.advance top p = .failed fault q) :
    l.meaning leaf (stackPath below) top.lexis.id = .error fault := by
  have moved := l.moved top p
  rw [move] at moved
  rw [stacked.meaning_top settles]
  cases moved with
  | unfinished done joined =>
    rw [done]
    simpa [absorb] using joined
  | dangling pending absent =>
    rw [pending]
    simp only [absorb, absent]
  | @blocked link links x _ _ pending found entry =>
    have fails := stacked.meaning_of_enter_failed settles (Graph.get?_self found) entry
    rw [Graph.id_of_get? found] at fails
    rw [pending]
    simp only [absorb, found, fails]
  | @refused link links x w _ _ pending found entry run =>
    obtain ⟨after, more, known⟩ := stacked.enter_known (Graph.get?_self found) entry
    rw [Graph.id_of_get? found] at known
    have word := after.coherent.meaning_of_wordOf (settles.mono more) (unsettled_of_sound after.sound)
      (Pass.wordOf_eq_ok.mpr known)
    rw [pending]
    simp only [absorb, found, word, run]

end Top

/-- A run gives what the derivation of its lexis means. -/
theorem Ending.meaning_eq {l : Lexicon} {leaf : Lexis → Except Fault Word} {first : Frame}
    {entry : Pass} {result : Except Fault Word × Pass} (ending : l.Ending first entry result)
    (start : l.Stacked [first] entry) (settles : l.Settles leaf entry) :
    result.1 = l.meaning leaf [] first.lexis.id := by
  cases ending with
  | @word top p w q walk move =>
    obtain ⟨stacked, more⟩ := walk.stacked start
    obtain ⟨frame, last, same⟩ := walk.getLast_lexis
    obtain rfl : top = frame := by simpa using last
    rw [← same]
    exact (stacked.meaning_of_finished (settles.mono more) move).symm
  | @fault top below p fault q walk move =>
    obtain ⟨stacked, more⟩ := walk.stacked start
    obtain ⟨frame, last, same⟩ := walk.getLast_lexis
    have fails := stacked.meaning_of_failed (settles.mono more) move
    rw [← same]
    exact (meaning_lowest_of_fault stacked.coherent (settles.mono more) stacked.sound
      stacked.distinct stacked.waiting fails frame last).symm

/-- What resolving an id gives does not depend on what the pass has kept before. -/
theorem AtRest.resolve_eq_meaning {l : Lexicon} {leaf : Lexis → Except Fault Word} {p : Pass}
    (rest : l.AtRest p) (settles : l.Settles leaf p) (id : String) :
    (l.resolve id p).1 = l.meaning leaf [] id := by
  have resolved := l.resolved id p
  generalize l.resolve id p = result at resolved ⊢
  cases resolved with
  | kept known => exact (rest.coherent.meaning_of_kept settles known (by simp)).symm
  | absent unknown absent => exact (meaning_absent absent).symm
  | known found entry =>
    obtain ⟨after, more, known⟩ := Stacked.enter_known rest (Graph.get?_self found) entry
    rw [Graph.id_of_get? found] at known
    exact (after.coherent.meaning_of_kept (settles.mono more) known (by simp)).symm
  | failed found entry =>
    have fails := Stacked.meaning_of_enter_failed rest settles (Graph.get?_self found) entry
    rw [Graph.id_of_get? found] at fails
    exact fails.symm
  | run found entry ending =>
    obtain ⟨start, more⟩ := Stacked.enter_opened rest (Graph.get?_self found) entry (.singleton _)
    rw [ending.meaning_eq start (settles.mono more), Graph.id_of_get? found]

end Etymology.Lexicon
