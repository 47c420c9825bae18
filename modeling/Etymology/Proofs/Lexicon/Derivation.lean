import Etymology.Lexicon.Resolve
import Etymology.Proofs.Pipeline
import Mathlib.Data.List.Basic

namespace Etymology.Lexicon

def transformNamed (l : Lexicon) (referrer name : String) : Except Fault Transform :=
  match l.transforms.get? name with
  | some t => .ok t
  | none => .error (.unknownReference name .transform (some referrer))

/-- The transforms of a link, all looked up before the first of them runs on the word of the
etymon. A failing script is reported for the lexis that has the link. -/
def pipeline (l : Lexicon) (id : String) (link : Etymon) (source : Lexis) (w : Word) :
    Except Fault Word :=
  match link.transforms.mapM (l.transformNamed id) with
  | .ok ts => (ts.foldlM (Transform.run source l.scripts) w).mapError (blameScript id)
  | .error fault => .error fault

/-- The contributions of some links of a lexis in turn, up to the first fault, where the words of
the etymons are given. -/
def absorb (l : Lexicon) (word : String → Except Fault Word) (id : String) :
    List Etymon → Except Fault (List Contribution)
  | [] => .ok []
  | link :: links =>
    match l.graph.get? link.ancestor with
    | none => .error (.unknownReference link.ancestor .lexis (some id))
    | some y => match word link.ancestor with
      | .error fault => .error fault
      | .ok w => match l.pipeline id link (y.withWord w) w with
        | .error fault => .error fault
        | .ok c => match l.absorb word id links with
          | .error fault => .error fault
          | .ok cs => .ok (⟨link, y.withWord w, c⟩ :: cs)

/-- The word that contributions make together, under the global rules. -/
def agglutinated (l : Lexicon) (x : Lexis) (cs : List Contribution) : Except Fault Word :=
  let w : Word := ⟨cs.flatMap fun c => c.word.letters⟩
  GlobalRule.runAll (x.withWord w) (cs.map Contribution.source) l.scripts l.rules w

/-- The word of a lexis from the words of its etymons. -/
def derive (l : Lexicon) (word : String → Except Fault Word) (x : Lexis) : Except Fault Word :=
  match l.absorb word x.id x.orderedEtymons with
  | .ok cs => l.agglutinated x cs
  | .error fault => .error fault

theorem mapM_transformNamed (l : Lexicon) (id : String) (names : List String) :
    names.mapM (l.transformNamed id) = l.transformsOf id names := by
  induction names with
  | nil => rfl
  | cons name names ih =>
    rw [List.mapM_cons, ih, transformsOf, transformNamed]
    cases l.transforms.get? name with
    | none => rfl
    | some t => cases l.transformsOf id names <;> rfl

theorem contribution_eq_pipeline (l : Lexicon) (id : String) (link : Etymon) (source : Lexis) (w : Word) :
    l.contribution id link source w = l.pipeline id link source w := by
  rw [contribution, pipeline, mapM_transformNamed]
  cases l.transformsOf id link.transforms with
  | ok ts => simp only [runSteps_chain]
  | error fault => rfl

theorem joined_eq_agglutinated (l : Lexicon) (x : Lexis) (cs : List Contribution) :
    l.joined x (cs.map Contribution.source) (cs.map Contribution.word) = l.agglutinated x cs := by
  simp only [joined, agglutinated, GlobalRule.applyAll_eq_runAll, List.flatMap_map]

theorem mem_orderedEtymons {x : Lexis} {e : Etymon} : e ∈ x.orderedEtymons ↔ e ∈ x.etymons :=
  (List.mergeSort_perm x.etymons _).mem_iff

section Congr

variable {l : Lexicon} {g : Graph} {other : Option Generator} {word word' : String → Except Fault Word}

theorem absorb_congr {id : String} {links : List Etymon}
    (look : ∀ e ∈ links, (g.get? e.ancestor).map Lexis.withWord = (l.graph.get? e.ancestor).map Lexis.withWord)
    (same : ∀ e ∈ links, word' e.ancestor = word e.ancestor) :
    absorb { l with graph := g, generator := other } word' id links = l.absorb word id links := by
  induction links with
  | nil => rfl
  | cons link links ih =>
    obtain ⟨lookHere, lookLater⟩ := List.forall_mem_cons.mp look
    obtain ⟨here, later⟩ := List.forall_mem_cons.mp same
    have rest := ih lookLater later
    cases found : l.graph.get? link.ancestor with
    | none =>
      rw [found, Option.map_none, Option.map_eq_none_iff] at lookHere
      simp only [absorb, lookHere, found]
    | some y =>
      rw [found, Option.map_some, Option.map_eq_some_iff] at lookHere
      obtain ⟨z, atLink, alike⟩ := lookHere
      simp only [absorb, atLink, found, here, alike, rest]
      rfl

/-- Of the ancestors of a lexis, only what they are beside their words matters for the word that it derives,
and the outcomes for them. Phonetic rules have no part in it. -/
theorem derive_congr_withWord {x : Lexis}
    (look : ∀ e ∈ x.etymons, (g.get? e.ancestor).map Lexis.withWord = (l.graph.get? e.ancestor).map Lexis.withWord)
    (same : ∀ e ∈ x.etymons, word' e.ancestor = word e.ancestor) :
    derive { l with graph := g, generator := other } word' x = l.derive word x := by
  have contributions : absorb { l with graph := g, generator := other } word' x.id x.orderedEtymons =
      l.absorb word x.id x.orderedEtymons :=
    absorb_congr (fun e member => look e (mem_orderedEtymons.mp member))
      fun e member => same e (mem_orderedEtymons.mp member)
  simp only [derive, contributions]
  rfl

/-- In particular nothing but what look-ups of them find. -/
theorem derive_congr {x : Lexis} (look : ∀ e ∈ x.etymons, g.get? e.ancestor = l.graph.get? e.ancestor)
    (same : ∀ e ∈ x.etymons, word' e.ancestor = word e.ancestor) :
    derive { l with graph := g } word' x = l.derive word x :=
  derive_congr_withWord (fun e member => congrArg _ (look e member)) same

end Congr

/-- A contribution is what its link makes of a word of its ancestor. -/
def Contributes (l : Lexicon) (word : String → Except Fault Word) (id : String) (c : Contribution) :
    Prop :=
  ∃ y w, l.graph.get? c.link.ancestor = some y ∧ word c.link.ancestor = .ok w ∧
    c.source = y.withWord w ∧ l.pipeline id c.link c.source w = .ok c.word

theorem Contributes.mono {l : Lexicon} {word word' : String → Except Fault Word} {id : String}
    {c : Contribution} (contributes : l.Contributes word id c)
    (more : ∀ a w, word a = .ok w → word' a = .ok w) : l.Contributes word' id c := by
  obtain ⟨y, w, found, known, source, run⟩ := contributes
  exact ⟨y, w, found, more _ _ known, source, run⟩

/-- Links that have contributed stay behind; what comes of all links is decided by the others. -/
theorem absorb_contributed {l : Lexicon} {word : String → Except Fault Word} {id : String}
    {cs : List Contribution} (contributed : ∀ c ∈ cs, l.Contributes word id c) (links : List Etymon) :
    l.absorb word id (cs.map Contribution.link ++ links) = (l.absorb word id links).map (cs ++ ·) := by
  induction cs with
  | nil => cases h : l.absorb word id links <;> simp [h, Except.map]
  | cons c cs ih =>
    obtain ⟨y, w, found, known, source, run⟩ := contributed c List.mem_cons_self
    have later := ih fun d member => contributed d (List.mem_cons_of_mem c member)
    have same : (⟨c.link, y.withWord w, c.word⟩ : Contribution) = c := by rw [← source]
    rw [source] at run
    simp only [List.map_cons, List.cons_append, absorb, found, known, run, later, same]
    cases l.absorb word id links <;> rfl

/-- What links contribute together is what each of them contributes, in their order. -/
theorem absorb_eq_ok_iff {l : Lexicon} {word : String → Except Fault Word} {id : String} {links : List Etymon}
    {cs : List Contribution} : l.absorb word id links = .ok cs ↔
      cs.map Contribution.link = links ∧ ∀ c ∈ cs, l.Contributes word id c := by
  constructor
  · intro run
    induction links generalizing cs with
    | nil =>
      cases run
      exact ⟨rfl, nofun⟩
    | cons link links ih =>
      simp only [absorb] at run
      split at run
      · cases run
      · next y found =>
        split at run
        · cases run
        · next w known =>
          split at run
          · cases run
          · next c here =>
            split at run
            · cases run
            · next rest later =>
              cases run
              obtain ⟨same, all⟩ := ih later
              refine ⟨congrArg (link :: ·) same, List.forall_mem_cons.mpr ⟨?_, all⟩⟩
              exact ⟨y, w, found, known, rfl, here⟩
  · rintro ⟨rfl, all⟩
    have whole := absorb_contributed all []
    simpa [absorb, Except.map] using whole

end Etymology.Lexicon
