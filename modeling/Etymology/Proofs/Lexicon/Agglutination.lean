import Etymology.Proofs.Lexicon.Reordering

namespace Etymology.Lexicon

/-- A lexis derives a word exactly by contributions of all its links, sorted stably, that the global rules
make the word of. -/
theorem derive_eq_ok_iff {l : Lexicon} {word : String → Except Fault Word} {x : Lexis} {w : Word} :
    l.derive word x = .ok w ↔ ∃ cs, Etymon.StablySorted x.etymons (cs.map Contribution.link) ∧
      (∀ c ∈ cs, l.Contributes word x.id c) ∧ l.agglutinated x cs = .ok w := by
  constructor
  · intro run
    unfold derive at run
    split at run
    · next cs contributions =>
      obtain ⟨links, all⟩ := absorb_eq_ok_iff.mp contributions
      exact ⟨cs, links ▸ x.stablySorted_orderedEtymons, all, run⟩
    · cases run
  · rintro ⟨cs, sorted, all, run⟩
    have links : cs.map Contribution.link = x.orderedEtymons := sorted.unique x.stablySorted_orderedEtymons
    rw [derive, absorb_eq_ok_iff.mpr ⟨links, all⟩]
    exact run

section Failed

variable {l : Lexicon} {p q : Pass} {top : Frame} {below : List Frame} {fault : Fault}

/-- Below the top of a stack every frame waits for the one above it. -/
theorem exists_waitsFor (waiting : (top :: below).IsChain fun upper lower => WaitsFor lower upper) {f : Frame}
    (member : f ∈ below) : ∃ upper ∈ top :: below, WaitsFor f upper := by
  induction below generalizing top with
  | nil => cases member
  | cons next below ih =>
    obtain ⟨waits, rest⟩ := List.isChain_cons_cons.mp waiting
    rcases List.mem_cons.mp member with rfl | later
    · exact ⟨top, List.mem_cons_self, waits⟩
    · obtain ⟨upper, inside, waits⟩ := ih rest later
      exact ⟨upper, List.mem_cons_of_mem top inside, waits⟩

/-- A frame that has come to a link without a contribution derives no word yet. -/
theorem SoundFrame.underived {f : Frame} {link : Etymon} {links : List Etymon} (sound : l.SoundFrame p f)
    (pending : f.remaining = link :: links)
    (missing : ∀ c : Contribution, c.link = link → ¬ l.Contributes p.wordOf f.lexis.id c) (w : Word) :
    l.derive p.wordOf f.lexis ≠ .ok w := by
  rw [sound.derive_eq fun _ _ known => known, pending]
  cases contributions : l.absorb p.wordOf f.lexis.id (link :: links) with
  | error fault => exact nofun
  | ok cs =>
    obtain ⟨same, all⟩ := absorb_eq_ok_iff.mp contributions
    cases cs with
    | nil => cases same
    | cons c cs => exact absurd (all c List.mem_cons_self) (missing c (List.cons.inj same).1)

theorem not_contributes_of_unknown {c : Contribution} (unknown : p.words.get? c.link.ancestor = none) (id : String) :
    ¬ l.Contributes p.wordOf id c := by
  rintro ⟨y, v, -, known, -, -⟩
  rw [Pass.wordOf_eq_ok, unknown] at known
  cases known

/-- Where the top of a stack fails, none of its lexes derives a word from those that are known by then. -/
theorem Stacked.underived (stacked : l.Stacked (top :: below) p) (move : l.advance top p = .failed fault q)
    {f : Frame} (member : f ∈ top :: below) (w : Word) : l.derive q.wordOf f.lexis ≠ .ok w := by
  obtain ⟨after, -⟩ := stacked.failed move
  have sound := after.sound f member
  rcases List.mem_cons.mp member with rfl | under
  · have moved := l.moved f p
    rw [move] at moved
    cases moved with
    | unfinished done joined =>
      rw [sound.derive_eq fun _ _ known => known, done]
      simp [absorb, joined]
    | dangling pending absent =>
      refine sound.underived pending ?_ w
      rintro c rfl ⟨y, v, found, -⟩
      rw [absent] at found
      cases found
    | @blocked link links x _ _ pending found entry =>
      refine sound.underived pending ?_ w
      rintro c rfl
      refine not_contributes_of_unknown ?_ _
      have entered := l.entered x p
      rw [entry] at entered
      rw [← Graph.id_of_get? found]
      cases entered with
      | circular unknown => exact unknown
      | ungenerated unknown => exact unknown
    | @refused link links x v _ _ pending found entry run =>
      obtain ⟨-, -, known⟩ := stacked.enter_known (Graph.get?_self found) entry
      rw [Graph.id_of_get? found] at known
      refine sound.underived pending ?_ w
      rintro c rfl ⟨y, u, atLink, kept, source, made⟩
      obtain rfl : x = y := Option.some.inj (found.symm.trans atLink)
      rw [Pass.wordOf_eq_ok, known] at kept
      cases kept
      rw [source, run] at made
      cases made
  · obtain ⟨upper, inside, link, links, pending, leads⟩ := exists_waitsFor after.waiting under
    refine sound.underived pending ?_ w
    rintro c rfl
    refine not_contributes_of_unknown ?_ _
    rw [leads]
    exact (after.sound upper inside).unsettled

end Failed

section Resolving

variable {l : Lexicon} {p : Pass} {x : Lexis} {w : Word}

/-- A lexis that fails derives no word from those that are known after that. -/
theorem AtRest.underived {fault : Fault} (rest : l.AtRest p) (found : l.graph.get? x.id = some x)
    (linked : x.etymons ≠ []) (failed : (l.resolve x.id p).1 = .error fault) :
    l.derive (l.resolve x.id p).2.wordOf x ≠ .ok w := by
  have resolved := l.resolved x.id p
  generalize l.resolve x.id p = result at resolved failed ⊢
  cases resolved with
  | kept => cases failed
  | absent _ absent =>
    rw [found] at absent
    cases absent
  | known => cases failed
  | @failed y cause q atId entry =>
    obtain rfl : x = y := Option.some.inj (found.symm.trans atId)
    have entered := l.entered x p
    rw [entry] at entered
    cases entered with
    | circular _ _ again =>
      rw [rest.inProgress_eq_nil] at again
      cases again
    | ungenerated _ _ _ unlinked => exact absurd unlinked linked
  | @run y _ atId entry ending =>
    obtain rfl : x = y := Option.some.inj (found.symm.trans atId)
    obtain ⟨start, -⟩ := Stacked.enter_opened rest found entry (.singleton _)
    cases ending with
    | word => cases failed
    | fault walk move =>
      obtain ⟨stacked, -⟩ := walk.stacked start
      obtain ⟨lowest, last, same⟩ := walk.getLast_lexis
      have nothing := stacked.underived move (List.mem_of_getLast? last) w
      rw [same] at nothing
      exact nothing

theorem AtRest.derive_of_resolve (rest : l.AtRest p) (found : l.graph.get? x.id = some x)
    (bare : x.literal? = none) (linked : x.etymons ≠ []) (word : (l.resolve x.id p).1 = .ok w) :
    l.derive (l.resolve x.id p).2.wordOf x = .ok w := by
  obtain ⟨after, -, known⟩ := rest.resolve x.id
  obtain ⟨y, atId, account⟩ := after.coherent.accounted (known w word)
  obtain rfl : x = y := Option.some.inj (found.symm.trans atId)
  cases account with
  | literal own =>
    rw [bare] at own
    cases own
  | generated _ unlinked => exact absurd unlinked linked
  | derived _ _ _ derives => exact derives

/-- A lexis that is derived gets its word exactly where it derives it from the words that are known then. -/
theorem AtRest.resolve_eq_ok_iff (rest : l.AtRest p) (found : l.graph.get? x.id = some x)
    (bare : x.literal? = none) (linked : x.etymons ≠ []) :
    (l.resolve x.id p).1 = .ok w ↔ l.derive (l.resolve x.id p).2.wordOf x = .ok w := by
  constructor
  · exact rest.derive_of_resolve found bare linked
  · intro derives
    cases outcome : (l.resolve x.id p).1 with
    | error fault => exact absurd derives (rest.underived found linked outcome)
    | ok v =>
      have other := rest.derive_of_resolve found bare linked outcome
      rw [derives] at other
      rw [Except.ok.inj other]

end Resolving

/-- Where the orders of the etymons of a lexis are distinct, it does not matter how they are declared: with any
permutation of them in their place, ids that are resolved in turn have the outcomes that they had, and the same
choices are made. And whether orders tie or not, a lexis that is derived gets a word exactly where all of its
etymons contribute; the word is, under the global rules, what their contributions make one behind the other,
sorted by order and otherwise as declared. -/
theorem agglutinates_by_order {l : Lexicon} {x : Lexis} (member : x ∈ l.graph.nodes) :
    ((x.etymons.map Etymon.order).Nodup → ∀ es : List Etymon, es.Perm x.etymons →
      ∃ g, l.graph.replace { x with etymons := es } = .ok g ∧
        ∀ ids p, outcomes { l with graph := g } ids p = l.outcomes ids p) ∧
      (x.literal? = none → x.etymons ≠ [] → ∀ calls picks w,
        let result := l.resolve x.id (l.session calls { picks := picks })
        result.1 = .ok w ↔ ∃ cs, Etymon.StablySorted x.etymons (cs.map Contribution.link) ∧
          (∀ c ∈ cs, l.Contributes result.2.wordOf x.id c) ∧ l.agglutinated x cs = .ok w ∧
          (l.rules = [] → w.letters = cs.flatMap fun c => c.word.letters)) := by
  have found : l.graph.get? x.id = some x := Graph.get?_of_mem member
  constructor
  · intro distinct es perm
    have alike : { x with etymons := es }.ordered = x.ordered :=
      congrArg (fun links => { x with etymons := links }) (Lexis.orderedEtymons_of_perm perm distinct)
    refine ⟨l.graph.set { x with etymons := es }, ?_, ?_⟩
    · simp only [Graph.replace, Graph.get, found]
    · exact outcomes_of_ordered_eq (ordered_set member alike)
  · intro bare linked calls picks w result
    have rest : l.AtRest (l.session calls { picks := picks }) := ((l.atRest_fresh picks).session calls).1
    rw [rest.resolve_eq_ok_iff found bare linked, derive_eq_ok_iff]
    constructor
    · rintro ⟨cs, sorted, all, made⟩
      refine ⟨cs, sorted, all, made, fun silent => ?_⟩
      rw [agglutinated, silent] at made
      cases made
      rfl
    · rintro ⟨cs, sorted, all, made, -⟩
      exact ⟨cs, sorted, all, made⟩

/-- A compound whose orders are distinct, and against its declaration. -/
def sea : Lexis where
  id := "sea"
  etymons := [⟨"road", [], 3⟩, ⟨"whale", [], -1⟩]

/-- A compound whose orders tie but for the last. -/
def ford : Lexis where
  id := "ford"
  etymons := [⟨"road", [], 0⟩, ⟨"whale", [], 0⟩, ⟨"road", [], -2⟩]

def compounds : Lexicon where
  graph := {
    nodes := [
      { id := "whale", word := some ⟨["h", "v", "a", "l"]⟩ },
      { id := "road", word := some ⟨["r", "a", "d"]⟩ },
      sea,
      ford]
    ids_nodup := by decide }

/-- Declared the other way round, the first compound has the word that it had. The second begins with the road
of the least order, and then has the other before the whale, as they are declared. -/
theorem compounds_sea_kept_ford_tied :
    (∃ g, compounds.graph.replace { sea with etymons := [⟨"whale", [], -1⟩, ⟨"road", [], 3⟩] } = .ok g ∧
      outcomes { compounds with graph := g } ["sea"] {} = [(.ok ⟨["h", "v", "a", "l", "r", "a", "d"]⟩, {})]) ∧
      ∃ cs : List Contribution, Etymon.StablySorted ford.etymons (cs.map Contribution.link) ∧
        (cs.flatMap fun c => c.word.letters) = ["r", "a", "d", "r", "a", "d", "h", "v", "a", "l"] := by
  constructor
  · obtain ⟨g, put, same⟩ := (agglutinates_by_order (l := compounds) (x := sea) (by decide)).1 (by decide)
      [⟨"whale", [], -1⟩, ⟨"road", [], 3⟩] (by decide)
    have ordered : sea.orderedEtymons = [⟨"whale", [], -1⟩, ⟨"road", [], 3⟩] := by
      simp [Lexis.orderedEtymons, sea, List.mergeSort]
    have entered : compounds.resolve "sea" {} =
        compounds.run ⟨sea, [], [⟨"whale", [], -1⟩, ⟨"road", [], 3⟩]⟩ [] (({} : Pass).start "sea") := by
      rw [← ordered]
      rfl
    refine ⟨g, put, ?_⟩
    rw [same, outcomes, entered]
    decide +kernel
  · have ordered : ford.orderedEtymons = [⟨"road", [], -2⟩, ⟨"road", [], 0⟩, ⟨"whale", [], 0⟩] := by
      simp [Lexis.orderedEtymons, ford, List.mergeSort]
    have entered : compounds.resolve "ford" {} = compounds.run
        ⟨ford, [], [⟨"road", [], -2⟩, ⟨"road", [], 0⟩, ⟨"whale", [], 0⟩]⟩ [] (({} : Pass).start "ford") := by
      rw [← ordered]
      rfl
    have word : (compounds.resolve "ford" {}).1 = .ok ⟨["r", "a", "d", "r", "a", "d", "h", "v", "a", "l"]⟩ := by
      rw [entered]
      decide +kernel
    obtain ⟨cs, sorted, -, -, plain⟩ := ((agglutinates_by_order (l := compounds) (x := ford) (by decide)).2
      (by decide) (by decide) [] {} _).mp word
    exact ⟨cs, sorted, (plain rfl).symm⟩

end Etymology.Lexicon
