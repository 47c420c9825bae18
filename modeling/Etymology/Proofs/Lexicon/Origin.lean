import Etymology.Proofs.Lexicon.Session

namespace Etymology

/-- The faults for which no word is generated: they blame phonetic rules, or that there are none. -/
inductive Ungenerated : Fault → Prop
  | underspecified (lexis : String) : Ungenerated (.underspecified lexis)
  | unknownSymbol (symbol : Value) (kind : SymbolKind) : Ungenerated (.unknownSymbol symbol kind)
  | tooDeep (symbol : String) (limit : Int) : Ungenerated (.tooDeep symbol limit)
  | unsuitable : Ungenerated .unsuitable

theorem ungenerated_unknownKey (key : Value) : Ungenerated (.unknownKey key) := by
  unfold Fault.unknownKey Fault.telling
  split
  · exact .unknownSymbol _ _
  · exact .unsuitable

namespace Generator

variable {g : Generator} {picks after : Picks} {fault : Fault}

theorem expand_ungenerated {letters : List String} {stack : List Pattern}
    (failed : (g.expand picks letters stack).1 = .error fault) : Ungenerated fault := by
  fun_induction g.expand picks letters stack with
  | case1 => cases failed
  | case2 _ _ _ ih => exact ih failed
  | case3 _ _ _ _ _ ih => exact ih failed
  | case4 =>
    cases failed
    exact .unknownSymbol _ _
  | case5 =>
    cases failed
    exact .unknownSymbol _ _
  | case6 =>
    cases failed
    exact .tooDeep _ _
  | case7 =>
    cases failed
    exact .unknownSymbol _ _
  | case8 _ _ _ _ _ _ _ _ _ _ _ _ ih => exact ih failed

theorem createWordFor_ungenerated {key : Value} (failed : g.createWordFor key picks = (.error fault, after)) :
    Ungenerated fault := by
  unfold createWordFor at failed
  split at failed
  · unfold createWord at failed
    split at failed
    · cases failed
      exact .unknownSymbol _ _
    · split at failed
      · cases failed
      · next cause rest run =>
        cases failed
        exact expand_ungenerated (congrArg Prod.fst run)
  · cases failed
    exact ungenerated_unknownKey _
  · cases failed
    exact .unsuitable

end Generator

namespace Lexicon

theorem generated_error {l : Lexicon} {x : Lexis} {picks after : Picks} {fault : Fault}
    (failed : l.generated x picks = (.error fault, after)) : Ungenerated fault := by
  unfold generated at failed
  split at failed
  · cases failed
    exact .underspecified _
  · split at failed
    · cases failed
      exact ungenerated_unknownKey _
    · exact Generator.createWordFor_ungenerated failed

theorem transformsOf_error {l : Lexicon} {id : String} {names : List String} {fault : Fault}
    (failed : l.transformsOf id names = .error fault) :
    ∃ name ∈ names, l.transforms.get? name = none ∧
      fault = .unknownReference name .transform (some id) := by
  induction names with
  | nil => cases failed
  | cons name names ih =>
    simp only [transformsOf] at failed
    split at failed
    · next absent => exact ⟨name, List.mem_cons_self, absent, (Except.error.inj failed).symm⟩
    · split at failed
      · cases failed
      · next cause later =>
        obtain ⟨other, member, origin⟩ := ih (later.trans (congrArg _ (Except.error.inj failed)))
        exact ⟨other, List.mem_cons_of_mem name member, origin⟩

/-- The link that a frame has come to is one of its lexis. -/
theorem SoundFrame.mem_etymons {l : Lexicon} {p : Pass} {f : Frame} {link : Etymon} {links : List Etymon}
    (sound : l.SoundFrame p f) (pending : f.remaining = link :: links) : link ∈ f.lexis.etymons := by
  rw [← mem_orderedEtymons, ← sound.links, pending]
  simp

/-- The lexis of a frame rests on the one that its link leads to, if that has no word of its own. -/
theorem SoundFrame.restsOn {l : Lexicon} {p : Pass} {f : Frame} {link : Etymon} {links : List Etymon}
    {x : Lexis} (sound : l.SoundFrame p f) (pending : f.remaining = link :: links)
    (found : l.graph.get? link.ancestor = some x) (bare : x.literal? = none) :
    l.graph.RestsOn f.lexis.id link.ancestor :=
  ⟨f.lexis, x, sound.found, found, sound.bare, bare, link, sound.mem_etymons pending, rfl⟩

/-- The lexis of a frame that waits for another rests on the lexis of that one. -/
theorem SoundFrame.restsOn_of_waitsFor {l : Lexicon} {p : Pass} {lower upper : Frame}
    (sound : l.SoundFrame p lower) (above : l.SoundFrame p upper) (waits : WaitsFor lower upper) :
    l.graph.RestsOn lower.lexis.id upper.lexis.id := by
  obtain ⟨link, links, pending, leads⟩ := waits
  have found := above.found
  rw [← leads] at found ⊢
  exact sound.restsOn pending found above.bare

end Lexicon

end Etymology
