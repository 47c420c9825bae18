import Etymology.Proofs.Graph.Links
import Etymology.Proofs.Lexicon.Walk
import Etymology.Proofs.Phonology.Choices

namespace Etymology

/-- The later pass keeps every word of the earlier one, and has only made further choices. -/
structure Pass.Extends (p q : Pass) : Prop where
  words : ∀ {id w}, p.words.get? id = some w → q.words.get? id = some w
  picks : p.picks.Precedes q.picks

theorem Pass.Extends.refl (p : Pass) : p.Extends p := ⟨id, .refl p.picks⟩

theorem Pass.Extends.trans {p q r : Pass} (first : p.Extends q) (second : q.Extends r) : p.Extends r :=
  ⟨fun known => second.words (first.words known), first.picks.trans second.picks⟩

/-- The word that a pass has for an id. -/
def Pass.wordOf (p : Pass) (id : String) : Except Fault Word :=
  match p.words.get? id with
  | some w => .ok w
  | none => .error (.unknownReference id .lexis none)

theorem Pass.wordOf_eq_ok {p : Pass} {id : String} {w : Word} :
    p.wordOf id = .ok w ↔ p.words.get? id = some w := by
  unfold wordOf
  cases p.words.get? id <;> simp

theorem Pass.Extends.wordOf {p q : Pass} (more : p.Extends q) {id : String} {w : Word}
    (known : p.wordOf id = .ok w) : q.wordOf id = .ok w :=
  Pass.wordOf_eq_ok.mpr (more.words (Pass.wordOf_eq_ok.mp known))

namespace Lexicon

/-- How the word that a pass keeps for a lexis comes about: it is its own, or it was generated with
choices made before, or it is derived from the words kept for the etymons. -/
inductive Accounted (l : Lexicon) (p : Pass) (x : Lexis) (w : Word) : Prop
  | literal : x.literal? = some w → Accounted l p x w
  | generated {g before after} : x.literal? = none → x.etymons = [] → x.generate.isTruthy = true →
      l.generator = some g → g.createWordFor x.generate before = (.ok w, after) →
      before.Precedes after → after.Precedes p.picks → Accounted l p x w
  | derived : x.literal? = none → x.etymons ≠ [] →
      (∀ e ∈ x.etymons, ∃ v, p.words.get? e.ancestor = some v) → l.derive p.wordOf x = .ok w →
      Accounted l p x w

theorem Accounted.mono {l : Lexicon} {p q : Pass} {x : Lexis} {w : Word} (account : l.Accounted p x w)
    (more : p.Extends q) : l.Accounted q x w := by
  cases account with
  | literal own => exact .literal own
  | generated bare unlinked keyed present run forward past =>
    exact .generated bare unlinked keyed present run forward (past.trans more.picks)
  | derived bare linked ancestors run =>
    have known : ∀ e ∈ x.etymons, ∃ v, q.words.get? e.ancestor = some v := fun e link => by
      obtain ⟨v, kept⟩ := ancestors e link
      exact ⟨v, more.words kept⟩
    have same : l.derive q.wordOf x = l.derive p.wordOf x := derive_congr (fun _ _ => rfl) fun e link => by
      obtain ⟨v, kept⟩ := ancestors e link
      rw [Pass.wordOf_eq_ok.mpr kept, Pass.wordOf_eq_ok.mpr (more.words kept)]
    exact .derived bare linked known (same.trans run)

/-- Every word kept belongs to a lexis of the graph and is accounted for, and the derivation of
every lexis that has one comes to an end. -/
structure Coherent (l : Lexicon) (p : Pass) : Prop where
  accounted : ∀ {id w}, p.words.get? id = some w → ∃ x, l.graph.get? id = some x ∧ l.Accounted p x w
  grounded : ∀ {id w}, p.words.get? id = some w → Acc (fun b a => l.graph.RestsOn a b) id

/-- A lexis is grounded when every lexis without a word among its ancestors is. -/
theorem acc_of_ancestors {g : Graph} {x : Lexis} {id : String} (found : g.get? id = some x)
    (ancestors : ∀ e ∈ x.etymons, Acc (fun b a => g.RestsOn a b) e.ancestor) :
    Acc (fun b a => g.RestsOn a b) id := by
  refine .intro id ?_
  rintro b ⟨y, -, atId, -, -, -, e, link, rfl⟩
  obtain rfl : x = y := Option.some.inj (found.symm.trans atId)
  exact ancestors e link

theorem acc_of_literal {g : Graph} {x : Lexis} {id : String} {w : Word} (found : g.get? id = some x)
    (own : x.literal? = some w) : Acc (fun b a => g.RestsOn a b) id := by
  refine .intro id ?_
  rintro b ⟨y, -, atId, -, bare, -, -⟩
  obtain rfl : x = y := Option.some.inj (found.symm.trans atId)
  rw [own] at bare
  cases bare

theorem Coherent.put {l : Lexicon} {p q : Pass} {id : String} {x : Lexis} {w : Word}
    (coherent : l.Coherent p) (found : l.graph.get? id = some x) (more : p.Extends q)
    (words : q.words = p.words.put id w) (account : l.Accounted q x w)
    (grounded : Acc (fun b a => l.graph.RestsOn a b) id) : l.Coherent q := by
  have split : ∀ {a v}, q.words.get? a = some v → (a = id ∧ v = w) ∨ p.words.get? a = some v := by
    intro a v kept
    rw [words, Table.get?_put] at kept
    split at kept
    · next same => exact .inl ⟨same.symm, (Option.some.inj kept).symm⟩
    · exact .inr kept
  constructor
  · intro a v kept
    rcases split kept with ⟨rfl, rfl⟩ | old
    · exact ⟨x, found, account⟩
    · obtain ⟨y, atA, account⟩ := coherent.accounted old
      exact ⟨y, atA, account.mono more⟩
  · intro a v kept
    rcases split kept with ⟨rfl, rfl⟩ | old
    · exact grounded
    · exact coherent.grounded old

/-- Choices alone leave a pass coherent. -/
theorem Coherent.of_words_eq {l : Lexicon} {p q : Pass} (coherent : l.Coherent p)
    (words : q.words = p.words) (more : p.Extends q) : l.Coherent q := by
  constructor
  · intro id w kept
    rw [words] at kept
    obtain ⟨x, found, account⟩ := coherent.accounted kept
    exact ⟨x, found, account.mono more⟩
  · intro id w kept
    rw [words] at kept
    exact coherent.grounded kept

/-- A frame of a lexis that needs its etymons: so far it holds, link by link and in order, what
they contribute. -/
structure SoundFrame (l : Lexicon) (p : Pass) (f : Frame) : Prop where
  found : l.graph.get? f.lexis.id = some f.lexis
  bare : f.lexis.literal? = none
  linked : f.lexis.etymons ≠ []
  unsettled : p.words.get? f.lexis.id = none
  links : f.absorbed.map Contribution.link ++ f.remaining = f.lexis.orderedEtymons
  contributed : ∀ c ∈ f.absorbed, l.Contributes p.wordOf f.lexis.id c

theorem SoundFrame.mono {l : Lexicon} {p q : Pass} {f : Frame} (sound : l.SoundFrame p f)
    (more : p.Extends q) (unsettled : q.words.get? f.lexis.id = none) : l.SoundFrame q f where
  found := sound.found
  bare := sound.bare
  linked := sound.linked
  unsettled := unsettled
  links := sound.links
  contributed := fun c member => (sound.contributed c member).mono fun _ _ known => more.wordOf known

/-- The link that a frame has come to leads to the lexis of another frame. -/
def WaitsFor (lower upper : Frame) : Prop :=
  ∃ link links, lower.remaining = link :: links ∧ link.ancestor = upper.lexis.id

/-- A pass together with the stack of a walk, from the top frame on. -/
structure Stacked (l : Lexicon) (frames : List Frame) (p : Pass) : Prop where
  coherent : l.Coherent p
  sound : ∀ f ∈ frames, l.SoundFrame p f
  inProgress : p.inProgress = (frames.map fun f => f.lexis.id).reverse
  distinct : (frames.map fun f => f.lexis.id).Nodup
  waiting : frames.IsChain fun upper lower => WaitsFor lower upper

end Lexicon

end Etymology
