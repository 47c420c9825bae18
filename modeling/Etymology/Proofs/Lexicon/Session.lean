import Etymology.Lexicon.Records
import Etymology.Proofs.Lexicon.Stack

namespace Etymology.Lexicon

/-- A pass between two calls: coherent, with nothing in progress. -/
def AtRest (l : Lexicon) (p : Pass) : Prop :=
  l.Stacked [] p

theorem AtRest.inProgress_eq_nil {l : Lexicon} {p : Pass} (rest : l.AtRest p) : p.inProgress = [] :=
  rest.inProgress

theorem atRest_fresh (l : Lexicon) (picks : Picks) : l.AtRest { picks := picks } where
  coherent := ⟨nofun, nofun⟩
  sound := nofun
  inProgress := rfl
  distinct := .nil
  waiting := .nil

theorem AtRest.resolve {l : Lexicon} {p : Pass} (rest : l.AtRest p) (id : String) :
    l.AtRest (l.resolve id p).2 ∧ p.Extends (l.resolve id p).2 ∧
      ∀ w, (l.resolve id p).1 = .ok w → (l.resolve id p).2.words.get? id = some w := by
  have resolved := l.resolved id p
  generalize l.resolve id p = result at resolved ⊢
  cases resolved with
  | kept known =>
    refine ⟨rest, .refl p, ?_⟩
    rintro v ⟨⟩
    exact known
  | absent => exact ⟨rest, .refl p, fun v impossible => by cases impossible⟩
  | known found entry =>
    obtain ⟨after, more, known⟩ := Stacked.enter_known rest (Graph.get?_self found) entry
    refine ⟨after, more, ?_⟩
    rintro v ⟨⟩
    exact Graph.id_of_get? found ▸ known
  | failed found entry =>
    obtain ⟨after, more⟩ := Stacked.enter_failed rest entry
    exact ⟨after, more, fun v impossible => by cases impossible⟩
  | run found entry ending =>
    obtain ⟨start, more⟩ := Stacked.enter_opened rest (Graph.get?_self found) entry (.singleton _)
    obtain ⟨after, further, known⟩ := ending.stacked start
    exact ⟨after, more.trans further, Graph.id_of_get? found ▸ known⟩

/-- What may be asked of a pass. -/
inductive Call where
  | resolve (id : String)
  | resolveAll
  | records (s : Selection) (condition : Option Predicate)
  | view (x : Lexis)
deriving Inhabited

/-- The pass as a call leaves it, whether the call succeeds or fails. -/
def Call.after (l : Lexicon) : Call → Pass → Pass
  | .resolve id, p => (l.resolve id p).2
  | .resolveAll, p => (l.resolveAll p).2
  | .records s condition, p => (l.records s condition p).2
  | .view x, p => (l.view x p).2

/-- The pass as a sequence of calls leaves it. -/
def session (l : Lexicon) (calls : List Call) (p : Pass) : Pass :=
  calls.foldl (fun p call => call.after l p) p

section Invariant

variable {l : Lexicon} (Holds : Pass → Prop) (resolves : ∀ id p, Holds p → Holds (l.resolve id p).2)

include resolves

theorem resolveEach_invariant (ids : List String) (p : Pass) (start : Holds p) :
    Holds (l.resolveEach ids p).2 := by
  induction ids generalizing p with
  | nil => exact start
  | cons id ids ih =>
    have next := resolves id p start
    simp only [resolveEach]
    split
    · next w q run =>
      rw [run] at next
      exact ih q next
    · next fault q run =>
      rw [run] at next
      exact next

theorem resolveAll_invariant (p : Pass) (start : Holds p) : Holds (l.resolveAll p).2 := by
  have each := resolveEach_invariant Holds resolves l.graph.ids p start
  unfold resolveAll
  split <;> simp_all

theorem recordsOf_invariant (condition : Option Predicate) (xs : List Lexis) (p : Pass)
    (start : Holds p) : Holds (l.recordsOf condition xs p).2 := by
  induction xs generalizing p with
  | nil => exact start
  | cons x xs ih =>
    have next := resolves x.id p start
    simp only [recordsOf]
    split
    · next fault q run =>
      rw [run] at next
      exact next
    · next w q run =>
      rw [run] at next
      have rows := ih q next
      split
      · next fault q' rest =>
        rw [rest] at rows
        exact rows
      · next found q' rest =>
        rw [rest] at rows
        split <;> exact rows

/-- All calls do their work by resolving lexes, so that what this preserves is preserved by all. -/
theorem after_invariant (call : Call) (p : Pass) (start : Holds p) : Holds (call.after l p) := by
  cases call with
  | resolve id => exact resolves id p start
  | resolveAll => exact resolveAll_invariant Holds resolves p start
  | records s condition =>
    have rows := recordsOf_invariant Holds resolves condition (l.graph.select s) p start
    simp only [Call.after, records]
    split <;> simp_all
  | view x =>
    have next := resolves x.id p start
    simp only [Call.after, view]
    split <;> simp_all

theorem session_invariant (calls : List Call) (p : Pass) (start : Holds p) : Holds (l.session calls p) := by
  induction calls generalizing p with
  | nil => exact start
  | cons call calls ih => exact ih _ (after_invariant Holds resolves call p start)

end Invariant

theorem AtRest.session {l : Lexicon} {p : Pass} (rest : l.AtRest p) (calls : List Call) :
    l.AtRest (l.session calls p) ∧ p.Extends (l.session calls p) := by
  refine session_invariant (fun q => l.AtRest q ∧ p.Extends q) ?_ calls p ⟨rest, .refl p⟩
  rintro id q ⟨here, more⟩
  obtain ⟨after, further, -⟩ := here.resolve id
  exact ⟨after, more.trans further⟩

theorem AtRest.resolveEach {l : Lexicon} {p : Pass} (rest : l.AtRest p) (ids : List String) :
    l.AtRest (l.resolveEach ids p).2 ∧ p.Extends (l.resolveEach ids p).2 := by
  refine resolveEach_invariant (fun q => l.AtRest q ∧ p.Extends q) ?_ ids p ⟨rest, .refl p⟩
  rintro id q ⟨here, more⟩
  obtain ⟨after, further, -⟩ := here.resolve id
  exact ⟨after, more.trans further⟩

/-- Where all of some ids are resolved, the pass has a word for each. -/
theorem AtRest.kept_of_resolveEach {l : Lexicon} {p : Pass} {ids : List String} (rest : l.AtRest p)
    (done : (l.resolveEach ids p).1 = .ok ()) :
    ∀ id ∈ ids, ∃ w, (l.resolveEach ids p).2.words.get? id = some w := by
  induction ids generalizing p with
  | nil => intro id member; cases member
  | cons first ids ih =>
    obtain ⟨after, -, known⟩ := rest.resolve first
    simp only [Lexicon.resolveEach] at done ⊢
    split at done
    · next w q run =>
      rw [run] at after known
      rw [List.forall_mem_cons]
      exact ⟨⟨w, (after.resolveEach ids).2.words (known w rfl)⟩, ih after done⟩
    · cases done

/-- All words together are those that the pass has kept once each id is resolved. -/
theorem resolveEach_of_resolveAll {l : Lexicon} {p : Pass} {t : Table Word}
    (done : (l.resolveAll p).1 = .ok t) :
    (l.resolveEach l.graph.ids p).1 = .ok () ∧ (l.resolveEach l.graph.ids p).2.words = t := by
  unfold resolveAll at done
  split at done
  · next q run =>
    rw [run]
    exact ⟨rfl, Except.ok.inj done⟩
  · cases done

theorem resolve_of_kept {l : Lexicon} {p : Pass} {id : String} {w : Word}
    (kept : p.words.get? id = some w) : l.resolve id p = (.ok w, p) := by
  simp only [Lexicon.resolve, kept]

/-- After any session nothing is in progress. Every word kept is accounted for, whatever calls come
later keep it, and asking for it again changes nothing and makes no choice. -/
theorem session_words_accounted (l : Lexicon) (picks : Picks) (calls later : List Call) :
    let p := l.session calls { picks := picks }
    p.inProgress = [] ∧ ∀ id w, p.words.get? id = some w →
      (∃ x, l.graph.get? id = some x ∧ l.Accounted p x w) ∧
        (l.session later p).words.get? id = some w ∧ l.resolve id p = (.ok w, p) := by
  intro p
  have rest : l.AtRest p := ((l.atRest_fresh picks).session calls).1
  refine ⟨rest.inProgress_eq_nil, ?_⟩
  intro id w kept
  exact ⟨rest.coherent.accounted kept, (rest.session later).2.words kept, resolve_of_kept kept⟩

end Etymology.Lexicon
