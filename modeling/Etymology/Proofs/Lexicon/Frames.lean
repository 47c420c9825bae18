import Etymology.Proofs.Lexicon.Session
import Etymology.Proofs.Lexicon.Turns
import Mathlib.Logic.Relation

namespace Etymology

namespace Lexicon

section Frame

variable {l : Lexicon} {p : Pass} {f lower upper : Frame}

theorem SoundFrame.length_absorbed (sound : l.SoundFrame p f) : f.absorbed.length = f.index := by
  have lengths := congrArg List.length sound.links
  rw [List.length_append, List.length_map] at lengths
  change f.absorbed.length = f.lexis.orderedEtymons.length - f.remaining.length
  omega

theorem SoundFrame.remaining_eq (sound : l.SoundFrame p f) : f.remaining = f.links.drop f.index := by
  rw [Frame.links, ← sound.links, ← sound.length_absorbed]
  simp

/-- The contribution of a link stands where the link does. -/
theorem SoundFrame.getElem?_links (sound : l.SoundFrame p f) {i : Nat} {c : Contribution}
    (here : f.absorbed[i]? = some c) : f.links[i]? = some c.link := by
  have before : i < (f.absorbed.map Contribution.link).length := by
    rw [List.length_map]
    exact (List.getElem?_eq_some_iff.mp here).1
  rw [Frame.links, ← sound.links, List.getElem?_append_left before, List.getElem?_map, here, Option.map_some]

/-- Up to the link that it has come to, a frame holds link by link the ancestor with the word that is kept for it,
and what the transforms of the link make of that word. -/
theorem SoundFrame.exists_contribution (sound : l.SoundFrame p f) {i : Nat} (before : i < f.index) :
    ∃ link y w c, f.links[i]? = some link ∧ l.graph.get? link.ancestor = some y ∧
      p.words.get? link.ancestor = some w ∧ f.sources[i]? = some (y.withWord w) ∧
      f.contributions[i]? = some c ∧ l.contribution f.lexis.id link (y.withWord w) w = .ok c := by
  rw [← sound.length_absorbed] at before
  obtain ⟨c, here⟩ : ∃ c, f.absorbed[i]? = some c := ⟨_, List.getElem?_eq_getElem before⟩
  obtain ⟨y, w, found, known, source, run⟩ := sound.contributed c (List.mem_of_getElem? here)
  refine ⟨c.link, y, w, c.word, sound.getElem?_links here, found, Pass.wordOf_eq_ok.mp known, ?_, ?_, ?_⟩
  · rw [f.getElem?_sources, here, Option.map_some, source]
  · rw [f.getElem?_contributions, here, Option.map_some]
  · rw [contribution_eq_pipeline, ← source, run]

/-- The link that a waiting frame has come to leads to the lexis of the frame above. -/
theorem SoundFrame.link_of_waitsFor (sound : l.SoundFrame p lower) (above : l.SoundFrame p upper)
    (waits : WaitsFor lower upper) :
    ∃ link, lower.links[lower.index]? = some link ∧ l.graph.get? link.ancestor = some upper.lexis := by
  obtain ⟨link, links, pending, leads⟩ := waits
  refine ⟨link, ?_, leads ▸ above.found⟩
  have rest := congrArg List.head? sound.remaining_eq
  rw [pending, List.head?_drop] at rest
  exact rest.symm

end Frame

/-- The stack at a stage, from its top frame on. -/
def Stage.frames : Stage → List Frame
  | .asked _ => []
  | .working top below => top :: below

section Turn

variable {l : Lexicon} {s t : Stage × Pass} {r : Except Fault Word × Pass}

theorem aligned_of_turn (step : l.turn s = .inl t) (aligned : l.Aligned s.1.frames s.2) :
    l.Aligned t.1.frames t.2 := by
  have turned := l.turned s
  rw [step] at turned
  cases turned with
  | begun unknown found entry =>
    exact (Aligned.enter_opened aligned (Graph.get?_self (Graph.get_eq_ok.mp found)) entry (.singleton _)).1
  | absorbed move => exact (Aligned.absorbed aligned move).1
  | opened move => exact (Aligned.opened aligned move).1
  | finished move => exact (Aligned.finished aligned move).1

theorem idle_of_turn (step : l.turn s = .inr r) (aligned : l.Aligned s.1.frames s.2) : r.2.inProgress = [] := by
  have turned := l.turned s
  rw [step] at turned
  suffices unwound : l.Aligned [] r.2 from aligned_nil_iff.mp unwound
  cases turned with
  | kept => exact aligned
  | absent => exact aligned
  | known unknown found entry =>
    exact (Aligned.enter_known aligned (Graph.get?_self (Graph.get_eq_ok.mp found)) entry).1
  | refused unknown found entry => exact (Aligned.enter_failed aligned entry).1
  | done move => exact (Aligned.finished aligned move).1
  | failed move => exact (Aligned.failed aligned move).1.abandon

/-- Every stage that resolving comes to has its stack aligned, and the same outcome. -/
theorem aligned_of_turns (turns : Relation.ReflTransGen (fun s t => l.turn s = .inl t) s t)
    (start : l.Aligned s.1.frames s.2) : l.Aligned t.1.frames t.2 ∧ l.outcomeFrom s = l.outcomeFrom t := by
  induction turns with
  | refl => exact ⟨start, rfl⟩
  | tail _ step ih => exact ⟨aligned_of_turn step ih.1, ih.2.trans (outcomeFrom_of_turn step)⟩

end Turn

/-- Resolving an id leaves nothing in progress, whatever words the pass has brought along. -/
theorem resolve_idle (l : Lexicon) (id : String) (p : Pass) (idle : p.inProgress = []) :
    (l.resolve id p).2.inProgress = [] := by
  obtain ⟨n, -, ends⟩ := l.exists_endsIn_resolve id p
  have start : l.Aligned (Stage.asked id).frames p := aligned_nil_iff.mpr idle
  exact ends.invariant (fun s t => aligned_of_turn) (fun s r => idle_of_turn) start

/-- The pass as a sequence of calls leaves it, each of them made of what the lexicon was at the time. -/
def afterAll (past : List (Lexicon × Call)) (p : Pass) : Pass :=
  past.foldl (fun p (l, call) => call.after l p) p

theorem afterAll_idle (past : List (Lexicon × Call)) (p : Pass) (idle : p.inProgress = []) :
    (afterAll past p).inProgress = [] := by
  induction past generalizing p with
  | nil => exact idle
  | cons first past ih =>
    obtain ⟨l, call⟩ := first
    exact ih _ (after_invariant (fun p => p.inProgress = []) l.resolve_idle call p idle)

/-- At every turn of resolving an id, whatever calls the pass has gone through: the lexes in progress are those
of the stack, each once, from the lowest frame on, and none has a word; the link that a frame below another has
come to leads to the lexis of that frame; and a frame holds, for the links that are behind it, what each of them
makes of the word that is kept for its ancestor. -/
theorem frames_of_turns {l : Lexicon} {past : List (Lexicon × Call)} {picks : Picks} {id : String} {top : Frame}
    {below : List Frame} {p : Pass}
    (turns : Relation.ReflTransGen (fun s t => l.turn s = .inl t) (.asked id, afterAll past { picks := picks })
      (.working top below, p)) :
    let frames := (top :: below).reverse
    l.resolve id (afterAll past { picks := picks }) = l.run top below p ∧
      p.inProgress = frames.map (fun f => f.lexis.id) ∧ (frames.map fun f => f.lexis.id).Nodup ∧
      (∀ f ∈ frames, p.words.get? f.lexis.id = none ∧ f.lexis.literal? = none) ∧
      (frames.IsChain fun lower upper =>
        ∃ link, lower.links[lower.index]? = some link ∧ l.graph.get? link.ancestor = some upper.lexis) ∧
      ∀ f ∈ frames, f.contributions.length = f.index ∧ f.sources.length = f.index ∧
        f.remaining = f.links.drop f.index ∧
        ∀ i < f.index, ∃ link y w c, f.links[i]? = some link ∧ l.graph.get? link.ancestor = some y ∧
          p.words.get? link.ancestor = some w ∧ f.sources[i]? = some (y.withWord w) ∧
          f.contributions[i]? = some c ∧ l.contribution f.lexis.id link (y.withWord w) w = .ok c := by
  intro frames
  have idle : (afterAll past { picks := picks }).inProgress = [] := afterAll_idle past _ rfl
  obtain ⟨aligned, outcome⟩ := aligned_of_turns turns (aligned_nil_iff.mpr idle)
  change l.Aligned (top :: below) p at aligned
  have sound : ∀ f ∈ frames, l.SoundFrame p f := fun f member => aligned.sound f (List.mem_reverse.mp member)
  refine ⟨outcome, ?_, ?_, fun f member => ⟨(sound f member).unsettled, (sound f member).bare⟩, ?_, ?_⟩
  · rw [aligned.inProgress, List.map_reverse]
  · rw [List.map_reverse, List.nodup_reverse]
    exact aligned.distinct
  · rw [List.isChain_reverse]
    exact aligned.waiting.imp_of_mem_imp fun upper lower above beneath waits =>
      (aligned.sound lower beneath).link_of_waitsFor (aligned.sound upper above) waits
  · intro f member
    have length := (sound f member).length_absorbed
    exact ⟨f.length_contributions.trans length, f.length_sources.trans length, (sound f member).remaining_eq,
      fun i => (sound f member).exists_contribution⟩

def boat : Lexis where
  id := "boat"
  etymons := [⟨"mast", [], 1⟩, ⟨"plank", [], 0⟩]

def mast : Lexis where
  id := "mast"
  etymons := [⟨"tree", [], 0⟩]

def plank (letters : List String) : Lexis where
  id := "plank"
  word := some ⟨letters⟩

/-- A boat of planks and a mast, which is made of a tree. The word of the planks is left open. -/
def shipyard (letters : List String) : Lexicon where
  graph := {
    nodes := [boat, mast, plank letters, { id := "tree", word := some ⟨["t", "r", "e"]⟩ }]
    ids_nodup := by
      change ["boat", "mast", "plank", "tree"].Nodup
      decide }

/-- The boat waits for its mast with the planks behind it. Their word is the one that they had when they were asked
for, before they got another. -/
theorem shipyard_boat_waits :
    let q := afterAll [(shipyard ["d", "a", "l"], .resolve "plank")] {}
    ∃ top lower p, Relation.ReflTransGen (fun s t => (shipyard ["p", "l", "a", "n"]).turn s = .inl t) (.asked "boat", q)
        (.working top [lower], p) ∧
      p.inProgress = ["boat", "mast"] ∧ lower.index = 1 ∧ lower.sources.length = 1 ∧
      ∃ w, p.words.get? "plank" = some w ∧ lower.sources[0]? = some ((plank ["p", "l", "a", "n"]).withWord w) := by
  intro q
  let l := shipyard ["p", "l", "a", "n"]
  let planks : Etymon := ⟨"plank", [], 0⟩
  let upwards : Etymon := ⟨"mast", [], 1⟩
  let source := (plank ["p", "l", "a", "n"]).withWord ⟨["d", "a", "l"]⟩
  let lower : Frame := ⟨boat, [⟨planks, source, ⟨["d", "a", "l"]⟩⟩], [upwards]⟩
  have ordered : boat.orderedEtymons = [planks, upwards] := by
    simp [Lexis.orderedEtymons, boat, List.mergeSort, planks, upwards]
  have begun : l.turn (.asked "boat", q) = .inl (.working ⟨boat, [], [planks, upwards]⟩ [], q.start "boat") := by
    rw [← ordered]
    rfl
  have absorbed : l.turn (.working ⟨boat, [], [planks, upwards]⟩ [], q.start "boat") =
      .inl (.working lower [], q.start "boat") := rfl
  have opened : l.turn (.working lower [], q.start "boat") =
      .inl (.working ⟨mast, [], mast.orderedEtymons⟩ [lower], (q.start "boat").start "mast") := rfl
  have turns : Relation.ReflTransGen (fun s t => l.turn s = .inl t) (.asked "boat", q)
      (.working ⟨mast, [], mast.orderedEtymons⟩ [lower], (q.start "boat").start "mast") :=
    .tail (.tail (.single begun) absorbed) opened
  obtain ⟨-, inProgress, -, -, -, held⟩ := frames_of_turns turns
  have index : lower.index = 1 := by
    rw [Frame.index, Frame.links, ordered]
    rfl
  obtain ⟨-, sources, -, each⟩ := held lower (by simp)
  refine ⟨_, lower, _, turns, inProgress, index, sources.trans index, ?_⟩
  obtain ⟨link, y, w, c, here, found, known, source, -⟩ := each 0 (by omega)
  rw [Frame.links, ordered] at here
  cases here
  cases found
  exact ⟨w, known, source⟩

end Lexicon

end Etymology
