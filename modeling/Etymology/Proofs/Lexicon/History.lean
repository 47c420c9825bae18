import Etymology.Proofs.Graph.Acyclic
import Etymology.Proofs.Lexicon.Outcome

namespace Etymology.Lexicon

section Each

variable {l : Lexicon} {leaf : Lexis → Except Fault Word} {p : Pass}

/-- Ids are all resolved where each of them has a word, and only there. -/
theorem AtRest.resolveEach_ok_iff {ids : List String} (rest : l.AtRest p) (settles : l.Settles leaf p) :
    (l.resolveEach ids p).1 = .ok () ↔ ∀ id ∈ ids, ∃ w, l.meaning leaf [] id = .ok w := by
  induction ids generalizing p with
  | nil => simp [Lexicon.resolveEach]
  | cons id ids ih =>
    obtain ⟨after, more, -⟩ := rest.resolve id
    have outcome := rest.resolve_eq_meaning settles id
    simp only [Lexicon.resolveEach, List.forall_mem_cons]
    split
    · next w q run =>
      rw [run] at after more outcome
      rw [ih after (settles.mono more), ← outcome]
      simp
    · next fault q run =>
      rw [run] at outcome
      simp [← outcome]

theorem AtRest.resolveAll_ok_iff (rest : l.AtRest p) (settles : l.Settles leaf p) :
    (∃ t, (l.resolveAll p).1 = .ok t) ↔ ∀ id ∈ l.graph.ids, ∃ w, l.meaning leaf [] id = .ok w := by
  rw [← rest.resolveEach_ok_iff settles]
  unfold Lexicon.resolveAll
  split
  · next q run => simp [run]
  · next fault q run => simp [run]

/-- All words together are the words that the derivations mean. -/
theorem AtRest.get?_resolveAll {t : Table Word} (rest : l.AtRest p) (settles : l.Settles leaf p)
    (done : (l.resolveAll p).1 = .ok t) (id : String) (w : Word) :
    t.get? id = some w ↔ l.meaning leaf [] id = .ok w := by
  obtain ⟨each, rfl⟩ := resolveEach_of_resolveAll done
  obtain ⟨after, more⟩ := rest.resolveEach l.graph.ids
  have word : ∀ {v}, (l.resolveEach l.graph.ids p).2.words.get? id = some v →
      l.meaning leaf [] id = .ok v := fun known =>
    after.coherent.meaning_of_kept (settles.mono more) known (by simp)
  constructor
  · exact word
  · intro means
    have present : id ∈ l.graph.ids := by
      by_contra missing
      rw [meaning_absent (Graph.get?_eq_none.mpr missing)] at means
      cases means
    obtain ⟨v, known⟩ := rest.kept_of_resolveEach each id present
    rwa [← Except.ok.inj ((word known).symm.trans means)]

/-- Two lexicons that mean the same by some ids come to the same end with them, on passes of any history. -/
theorem AtRest.resolveEach_congr {m : Lexicon} {leaf' : Lexis → Except Fault Word} {q : Pass} {ids : List String}
    (rest : l.AtRest p) (settles : l.Settles leaf p) (rest' : m.AtRest q) (settles' : m.Settles leaf' q)
    (same : ∀ id, m.meaning leaf' [] id = l.meaning leaf [] id) :
    (m.resolveEach ids q).1 = (l.resolveEach ids p).1 := by
  induction ids generalizing p q with
  | nil => rfl
  | cons id ids ih =>
    obtain ⟨after, more, -⟩ := rest.resolve id
    obtain ⟨after', more', -⟩ := rest'.resolve id
    have outcome := rest.resolve_eq_meaning settles id
    rw [← same, ← rest'.resolve_eq_meaning settles' id] at outcome
    rw [Lexicon.resolveEach, Lexicon.resolveEach]
    generalize l.resolve id p = result at *
    generalize m.resolve id q = result' at *
    obtain ⟨r, p'⟩ := result
    obtain ⟨r', q'⟩ := result'
    obtain rfl : r = r' := outcome
    cases r with
    | ok w => exact ih after (settles.mono more) after' (settles'.mono more')
    | error fault => rfl

theorem fst_resolveAll (l : Lexicon) (p : Pass) :
    (l.resolveAll p).1 = (l.resolveEach l.graph.ids p).1.map fun _ => (l.resolveEach l.graph.ids p).2.words := by
  unfold Lexicon.resolveAll
  split <;> simp [*, Except.map]

/-- So do they with all lexes, if they have the same ones: with the same fault, or with the same words. -/
theorem AtRest.resolveAll_congr {m : Lexicon} {leaf' : Lexis → Except Fault Word} {q : Pass}
    (rest : l.AtRest p) (settles : l.Settles leaf p) (rest' : m.AtRest q) (settles' : m.Settles leaf' q)
    (ids : m.graph.ids = l.graph.ids) (same : ∀ id, m.meaning leaf' [] id = l.meaning leaf [] id) :
    (m.resolveAll q).1.map Table.get? = (l.resolveAll p).1.map Table.get? := by
  have each : (m.resolveEach m.graph.ids q).1 = (l.resolveEach l.graph.ids p).1 :=
    ids ▸ rest.resolveEach_congr settles rest' settles' same
  have all := l.fst_resolveAll p
  have all' := m.fst_resolveAll q
  rw [each] at all'
  cases done : (l.resolveEach l.graph.ids p).1 with
  | error fault =>
    rw [all, all', done]
    rfl
  | ok u =>
    rw [done] at all all'
    have words := funext fun id => Option.ext fun w =>
      ((rest'.get?_resolveAll settles' all' id w).trans (same id ▸ Iff.rfl)).trans
        (rest.get?_resolveAll settles all id w).symm
    rw [all, all']
    exact congrArg Except.ok words

end Each

/-- On a pass of its own, resolving an id whose derivation runs in no circle gives what the recursion
over the derivation gives, word or fault. -/
theorem resolve_eq_iff_derives {l : Lexicon} {id : String} (silent : l.generator = none)
    (free : l.graph.CycleFreeFrom id) (picks : Picks) (r : Except Fault Word) :
    (l.resolve id { picks := picks }).1 = r ↔ l.Derives id r := by
  have outcome := (l.atRest_fresh picks).resolve_eq_meaning (settles_wordless silent _) id
  have derives : l.Derives id (l.meaning wordless [] id) :=
    derives_meaning free fun _ _ _ p member => by cases member
  rw [outcome]
  constructor
  · rintro rfl
    exact derives
  · exact derives.unique

/-- The head of the diamond below. Its etymons are joined in the other order. -/
def diamondHead : Lexis where
  id := "head"
  etymons := [⟨"late", ["soften"], 2⟩, ⟨"early", [], 1⟩]

/-- Two etymons of a head that meet again in one root. -/
def diamond : Lexicon where
  graph := {
    nodes := [
      diamondHead,
      { id := "late", etymons := [⟨"root", ["soften"], 0⟩] },
      { id := "early", etymons := [⟨"root", [], 0⟩] },
      { id := "root", word := some ⟨["k", "a"]⟩ }]
    ids_nodup := by decide }
  transforms := ⟨[("soften", ⟨"soften", [.letterReplace ⟨["k"]⟩ ⟨["g"]⟩ .all], none⟩)], by decide⟩

theorem diamond_head_resolved : (diamond.resolve "head" {}).1 = .ok ⟨["k", "a", "g", "a"]⟩ := by
  have free := Graph.cycleFreeFrom_of_findCycle?_eq_none (g := diamond.graph) (by decide +kernel)
  have late : diamond.Derives "late" (.ok ⟨["g", "a"]⟩) :=
    (resolve_eq_iff_derives rfl (free "late") {} _).mp (by decide +kernel)
  have early : diamond.Derives "early" (.ok ⟨["k", "a"]⟩) :=
    (resolve_eq_iff_derives rfl (free "early") {} _).mp (by decide +kernel)
  let word : String → Except Fault Word := fun id =>
    if id = "late" then .ok ⟨["g", "a"]⟩ else .ok ⟨["k", "a"]⟩
  have ordered : diamondHead.orderedEtymons = [⟨"early", [], 1⟩, ⟨"late", ["soften"], 2⟩] := by
    simp [Lexis.orderedEtymons, diamondHead, List.mergeSort]
  have joined : diamond.derive word diamondHead = .ok ⟨["k", "a", "g", "a"]⟩ := by
    rw [derive, ordered]
    rfl
  rw [resolve_eq_iff_derives rfl (free "head"), ← joined]
  refine .derived word rfl rfl (by decide) ?_
  simp [diamondHead, word, late, early]

/-- Neither earlier calls nor the order of insertion change what resolving an id gives: its word, or
its fault with the whole path or referrer that it names. Nor do they change whether all lexes have
words, and which. -/
theorem resolve_independent {l : Lexicon} {g : Graph} (silent : l.generator = none)
    (perm : g.nodes.Perm l.graph.nodes) (calls : List Call) (picks picks' : Picks) :
    let m : Lexicon := { l with graph := g }
    let p := m.session calls { picks := picks }
    let fresh : Pass := { picks := picks' }
    (∀ id, (m.resolve id p).1 = (l.resolve id fresh).1) ∧
      ((∃ t, (m.resolveAll p).1 = .ok t) ↔ ∃ t, (l.resolveAll fresh).1 = .ok t) ∧
      ∀ t t', (m.resolveAll p).1 = .ok t → (l.resolveAll fresh).1 = .ok t' →
        ∀ id, t.get? id = t'.get? id := by
  intro m p fresh
  have same : ∀ id, m.meaning wordless [] id = l.meaning wordless [] id :=
    meaning_congr (Graph.get?_perm perm) wordless []
  have rest : m.AtRest p := ((m.atRest_fresh picks).session calls).1
  have rest' : l.AtRest fresh := l.atRest_fresh picks'
  have settles : m.Settles wordless p := settles_wordless (l := m) silent p
  have settles' : l.Settles wordless fresh := settles_wordless silent fresh
  refine ⟨?_, ?_, ?_⟩
  · intro id
    rw [rest.resolve_eq_meaning settles, rest'.resolve_eq_meaning settles', same]
  · rw [rest.resolveAll_ok_iff settles, rest'.resolveAll_ok_iff settles']
    have members : ∀ id, id ∈ m.graph.ids ↔ id ∈ l.graph.ids := fun id => (perm.map Lexis.id).mem_iff
    simp only [members, same]
  · intro t t' done done' id
    ext w
    rw [rest.get?_resolveAll settles done, rest'.get?_resolveAll settles' done', same]

/-- Two lexes that derive each other, and one that derives from them. -/
def ring : Lexicon where
  graph := {
    nodes := [
      { id := "hen", etymons := [⟨"egg", [], 0⟩] },
      { id := "egg", etymons := [⟨"hen", [], 0⟩] },
      { id := "chick", etymons := [⟨"egg", [], 0⟩] }]
    ids_nodup := by decide }

def turnedRing : Graph where
  nodes := ring.graph.nodes.reverse
  ids_nodup := by decide

/-- The cycle is told from the lexis on that is asked for, not from the one where it was met before. -/
theorem ring_chick_cycle :
    let m : Lexicon := { ring with graph := turnedRing }
    (m.resolve "chick" (m.session [.resolve "hen", .resolveAll] {})).1 =
      .error (.cycle ["egg", "hen", "egg"]) := by
  intro m
  have perm : turnedRing.nodes.Perm ring.graph.nodes := List.reverse_perm _
  rw [(resolve_independent (l := ring) rfl perm [.resolve "hen", .resolveAll] {} {}).1]
  decide +kernel

end Etymology.Lexicon
