import Etymology.Proofs.Control
import Etymology.Proofs.Lexicon.History

namespace Etymology

namespace Record

/-- The order of a listing: by word, and where words are the same by id, character by character. -/
def Before (a b : Record) : Prop :=
  a.word < b.word ∨ a.word = b.word ∧ a.id < b.id

variable {a b : Record} {rows others : List Record}

theorem notAfter_iff : a.notAfter b = true ↔ a.word < b.word ∨ a.word = b.word ∧ a.id ≤ b.id := by
  simp [notAfter]

theorem notAfter_trans (a b c : Record) (first : a.notAfter b = true) (second : b.notAfter c = true) :
    a.notAfter c = true := by
  rw [notAfter_iff] at *
  rcases first with less | ⟨same, low⟩
  · rcases second with more | ⟨same, -⟩
    · exact .inl (String.lt_trans less more)
    · exact .inl (same ▸ less)
  · rcases second with more | ⟨again, high⟩
    · exact .inl (same ▸ more)
    · exact .inr ⟨same.trans again, String.le_trans low high⟩

theorem notAfter_total (a b : Record) : (a.notAfter b || b.notAfter a) = true := by
  rw [Bool.or_eq_true, notAfter_iff, notAfter_iff]
  by_cases less : a.word < b.word
  · exact .inl (.inl less)
  · by_cases more : b.word < a.word
    · exact .inr (.inl more)
    · have same : a.word = b.word := String.le_antisymm (String.not_lt.mp more) (String.not_lt.mp less)
      rcases String.le_total a.id b.id with low | high
      · exact .inl (.inr ⟨same, low⟩)
      · exact .inr (.inr ⟨same.symm, high⟩)

theorem before_of_notAfter (sorted : a.notAfter b = true) (other : a.id ≠ b.id) : a.Before b := by
  rcases notAfter_iff.mp sorted with less | ⟨same, low⟩
  · exact .inl less
  · exact .inr ⟨same, String.not_le.mp fun high => other (String.le_antisymm low high)⟩

theorem Before.asymm (first : a.Before b) (second : b.Before a) : False := by
  rcases first with less | ⟨same, low⟩
  · rcases second with more | ⟨same, -⟩
    · exact String.lt_irrefl _ (String.lt_trans less more)
    · exact String.lt_irrefl _ (same ▸ less)
  · rcases second with more | ⟨-, high⟩
    · exact String.lt_irrefl _ (same ▸ more)
    · exact String.lt_irrefl _ (String.lt_trans low high)

theorem nodup_of_before (sorted : rows.Pairwise Before) : rows.Nodup := by
  refine sorted.imp ?_
  rintro a _ less rfl
  exact less.asymm less

/-- There is one way only to put rows in order. -/
theorem eq_of_before (sorted : rows.Pairwise Before) (sorted' : others.Pairwise Before)
    (same : ∀ r, r ∈ rows ↔ r ∈ others) : rows = others := by
  have perm : rows.Perm others :=
    (List.perm_ext_iff_of_nodup (nodup_of_before sorted) (nodup_of_before sorted')).mpr same
  exact perm.eq_of_pairwise (fun a b _ _ less more => (less.asymm more).elim) sorted sorted'

/-- Rows in order that are all among others in order are in the same order there. -/
theorem sublist_of_before (sorted : rows.Pairwise Before) (sorted' : others.Pairwise Before)
    (among : ∀ r ∈ rows, r ∈ others) : rows.Sublist others := by
  have chosen : rows = others.filter fun r => decide (r ∈ rows) := by
    refine eq_of_before sorted (sorted'.sublist List.filter_sublist) fun r => ?_
    rw [List.mem_filter, decide_eq_true_eq]
    exact ⟨fun member => ⟨among r member, member⟩, And.right⟩
  rw [chosen]
  exact List.filter_sublist

/-- Sorting puts rows of distinct ids in order. -/
theorem pairwise_before_mergeSort (distinct : (rows.map id).Nodup) : (rows.mergeSort notAfter).Pairwise Before := by
  have sorted := List.pairwise_mergeSort notAfter_trans notAfter_total rows
  have perm := List.mergeSort_perm rows notAfter
  have apart : (rows.mergeSort notAfter).Pairwise fun a b => a.id ≠ b.id :=
    List.pairwise_map.mp ((perm.map id).nodup_iff.mpr distinct)
  exact (sorted.and apart).imp fun both => before_of_notAfter both.1 both.2

end Record

/-- A lexis has all that a listing is restricted to. -/
structure Selection.Selects (s : Selection) (x : Lexis) : Prop where
  language : ∀ language, s.language = some language → x.language = language
  tag : ∀ tag, s.tag = some tag → tag ∈ x.tags
  archaic : ∀ archaic, s.archaic = some archaic → x.archaic = archaic

theorem Selection.admits_iff {s : Selection} {x : Lexis} : s.admits x = true ↔ s.Selects x := by
  simp only [admits, Bool.and_eq_true, Option.all_eq_true, beq_iff_eq, List.contains_iff_mem]
  constructor
  · rintro ⟨⟨language, tag⟩, archaic⟩
    exact ⟨fun a given => (language a given).symm, tag, fun a given => (archaic a given).symm⟩
  · rintro ⟨language, tag, archaic⟩
    exact ⟨⟨fun a given => (language a given).symm, tag⟩, fun a given => (archaic a given).symm⟩

theorem Graph.mem_select {g : Graph} {s : Selection} {x : Lexis} :
    x ∈ g.select s ↔ x ∈ g.nodes ∧ s.Selects x := by
  rw [select, List.mem_filter, Selection.admits_iff]

namespace Lexicon

/-- The row of a lexis, with the word that a pass has for it, if it is as the condition asks. -/
def rowOf (p : Pass) (condition : Option Predicate) (x : Lexis) : Option Record :=
  (p.words.get? x.id).bind fun w =>
    if Predicate.holdsOpt condition (x.withWord w) then some (Record.ofLexis x w) else none

/-- A lexis has all that a listing is restricted to, and carrying its word it is as the condition asks. -/
structure Passes (s : Selection) (condition : Option Predicate) (x : Lexis) (w : Word) : Prop where
  selects : s.Selects x
  asks : ∀ p, condition = some p → p.holds { x with word := some w } = true

/-- What a pass lists: in strict order and with distinct ids, a row for each lexis that passes with the word that
resolving it gives, and no other. A row has the text of that word, and all else from the lexis. Whatever the listing
is not restricted from has a word. -/
structure Listed (l : Lexicon) (p : Pass) (s : Selection) (condition : Option Predicate) (rows : List Record) :
    Prop where
  sorted : rows.Pairwise Record.Before
  single : (rows.map Record.id).Nodup
  worded : ∀ x ∈ l.graph.nodes, s.Selects x → ∃ w, l.resolve x.id p = (.ok w, p)
  mem_iff : ∀ r, r ∈ rows ↔ ∃ x ∈ l.graph.nodes, ∃ w, l.resolve x.id p = (.ok w, p) ∧ Passes s condition x w ∧
    r = { id := x.id, language := x.language, word := w.text, definition := x.definition, pos := x.pos,
          archaic := x.archaic, tags := x.tags, kind := x.kind }

section Rows

variable {l : Lexicon} {p q : Pass} {s : Selection} {condition : Option Predicate} {x : Lexis} {xs : List Lexis}
variable {rows : List Record} {r : Record}

theorem rowOf_of_known {w : Word} (condition : Option Predicate) (known : p.words.get? x.id = some w) :
    rowOf p condition x = if Predicate.holdsOpt condition (x.withWord w) then some (Record.ofLexis x w) else none := by
  rw [rowOf, known]
  rfl

theorem rowOf_eq_some : rowOf p condition x = some r ↔ ∃ w, p.words.get? x.id = some w ∧
    Predicate.holdsOpt condition (x.withWord w) = true ∧ r = Record.ofLexis x w := by
  cases known : p.words.get? x.id with
  | none => simp [rowOf, known]
  | some w =>
    rw [rowOf_of_known condition known, Option.ite_none_right_eq_some, Option.some_inj]
    constructor
    · rintro ⟨holds, rfl⟩
      exact ⟨w, rfl, holds, rfl⟩
    · rintro ⟨_, ⟨⟩, holds, rfl⟩
      exact ⟨holds, rfl⟩

theorem passes_iff {w : Word} : Passes s condition x w ↔
    s.Selects x ∧ Predicate.holdsOpt condition (x.withWord w) = true := by
  rw [Predicate.holdsOpt_iff]
  exact ⟨fun passes => ⟨passes.selects, passes.asks⟩, fun ⟨selects, asks⟩ => ⟨selects, asks⟩⟩

/-- At rest, what resolving an id gives without a change to the pass is the word that is kept. -/
theorem AtRest.resolve_eq_iff_kept {id : String} {w : Word} (rest : l.AtRest p) :
    l.resolve id p = (.ok w, p) ↔ p.words.get? id = some w := by
  constructor
  · intro run
    obtain ⟨-, -, known⟩ := rest.resolve id
    rw [run] at known
    exact known w rfl
  · exact resolve_of_kept

/-- The rows of some lexes are those of the lexes one by one, with the words that the pass has in the end. -/
theorem AtRest.recordsOf_eq_ok (rest : l.AtRest p) (run : l.recordsOf condition xs p = (.ok rows, q)) :
    l.AtRest q ∧ p.Extends q ∧ (∀ x ∈ xs, ∃ w, q.words.get? x.id = some w) ∧
      rows = xs.filterMap (rowOf q condition) := by
  induction xs generalizing p rows q with
  | nil =>
    cases run
    exact ⟨rest, .refl _, nofun, rfl⟩
  | cons x xs ih =>
    obtain ⟨after, more, known⟩ := rest.resolve x.id
    rw [recordsOf] at run
    split at run
    · cases run
    · next w p' word =>
      rw [word] at after more known
      split at run
      · cases run
      · next later q' listed =>
        -- The word that was found first is still the word in the end.
        obtain ⟨final, further, worded, same⟩ := ih after listed
        have kept := further.words (known w rfl)
        have row := rowOf_of_known condition kept
        split at run
        · next holds =>
          cases run
          rw [if_pos holds] at row
          refine ⟨final, more.trans further, List.forall_mem_cons.mpr ⟨⟨w, kept⟩, worded⟩, ?_⟩
          rw [List.filterMap_cons, row, same]
        · next fails =>
          cases run
          rw [if_neg fails] at row
          refine ⟨final, more.trans further, List.forall_mem_cons.mpr ⟨⟨w, kept⟩, worded⟩, ?_⟩
          rw [List.filterMap_cons, row, same]

theorem nodup_ids_filterMap (p : Pass) (condition : Option Predicate) (distinct : (xs.map Lexis.id).Nodup) :
    ((xs.filterMap (rowOf p condition)).map Record.id).Nodup := by
  have among : ((xs.filterMap (rowOf p condition)).map Record.id).Sublist (xs.map Lexis.id) := by
    induction xs with
    | nil => exact .slnil
    | cons x xs ih =>
      have later := ih (List.nodup_cons.mp distinct).2
      cases row : rowOf p condition x with
      | none =>
        rw [List.filterMap_cons_none row]
        exact later.cons _
      | some r =>
        obtain ⟨w, -, -, rfl⟩ := rowOf_eq_some.mp row
        rw [List.filterMap_cons_some row]
        exact later.cons_cons x.id
  exact distinct.sublist among

theorem AtRest.listed_of_records (rest : l.AtRest p) (run : l.records s condition p = (.ok rows, q)) :
    l.AtRest q ∧ l.Listed q s condition rows := by
  unfold records at run
  split at run
  · next unsorted q' listed =>
    cases run
    obtain ⟨after, -, worded, rfl⟩ := rest.recordsOf_eq_ok listed
    have selected : ((l.graph.select s).map Lexis.id).Nodup :=
      l.graph.ids_nodup.sublist (List.filter_sublist.map Lexis.id)
    have distinct := nodup_ids_filterMap q condition selected
    have perm := List.mergeSort_perm ((l.graph.select s).filterMap (rowOf q condition)) Record.notAfter
    refine ⟨after, ⟨Record.pairwise_before_mergeSort distinct, (perm.map _).nodup_iff.mpr distinct, ?_, ?_⟩⟩
    · intro x member selects
      obtain ⟨w, known⟩ := worded x (Graph.mem_select.mpr ⟨member, selects⟩)
      exact ⟨w, resolve_of_kept known⟩
    · intro r
      simp only [List.mem_mergeSort, List.mem_filterMap, Graph.mem_select, rowOf_eq_some, passes_iff,
        after.resolve_eq_iff_kept]
      constructor
      · rintro ⟨x, ⟨member, selects⟩, w, known, holds, rfl⟩
        exact ⟨x, member, w, known, ⟨selects, holds⟩, rfl⟩
      · rintro ⟨x, member, w, known, ⟨selects, holds⟩, rfl⟩
        exact ⟨x, ⟨member, selects⟩, w, known, holds, rfl⟩
  · cases run

/-- Where each of some lexes has a word, taking their rows changes nothing. -/
theorem recordsOf_of_kept (condition : Option Predicate) (worded : ∀ x ∈ xs, ∃ w, p.words.get? x.id = some w) :
    l.recordsOf condition xs p = (.ok (xs.filterMap (rowOf p condition)), p) := by
  induction xs with
  | nil => rfl
  | cons x xs ih =>
    obtain ⟨⟨w, kept⟩, later⟩ := List.forall_mem_cons.mp worded
    have row := rowOf_of_known condition kept
    simp only [recordsOf, resolve_of_kept kept, ih later]
    split
    · next holds =>
      rw [if_pos holds] at row
      rw [List.filterMap_cons_some row]
    · next fails =>
      rw [if_neg fails] at row
      rw [List.filterMap_cons_none row]

/-- Once all lexes have words, every selection has a listing, and taking it changes nothing. -/
theorem AtRest.exists_listed (rest : l.AtRest p) (worded : ∀ x ∈ l.graph.nodes, ∃ w, p.words.get? x.id = some w)
    (s : Selection) (condition : Option Predicate) :
    ∃ rows, l.records s condition p = (.ok rows, p) ∧ l.Listed p s condition rows := by
  have selected : ∀ x ∈ l.graph.select s, ∃ w, p.words.get? x.id = some w := fun x member =>
    worded x (Graph.mem_select.mp member).1
  have run : l.records s condition p =
      (.ok (((l.graph.select s).filterMap (rowOf p condition)).mergeSort Record.notAfter), p) := by
    rw [records, recordsOf_of_kept condition selected]
  exact ⟨_, run, (rest.listed_of_records run).2⟩

/-- When all lexes are resolved, the words of the pass are theirs. -/
theorem AtRest.worded_of_resolveAll {t : Table Word} (rest : l.AtRest p) (run : l.resolveAll p = (.ok t, q)) :
    l.AtRest q ∧ q.words = t ∧ ∀ x ∈ l.graph.nodes, ∃ w, q.words.get? x.id = some w := by
  unfold resolveAll at run
  split at run
  · next p' each =>
    cases run
    have after := (rest.resolveEach l.graph.ids).1
    have known := rest.kept_of_resolveEach (congrArg Prod.fst each)
    rw [each] at after known
    exact ⟨after, rfl, fun x member => known x.id (List.mem_map_of_mem member)⟩
  · cases run

/-- A rendering lists its selection on a pass that has all words. -/
theorem AtRest.listed_of_render (rest : l.AtRest p) (run : l.render s condition p = (.ok rows, q)) :
    l.Listed q s condition rows ∧ ∀ x ∈ l.graph.nodes, ∃ w, l.resolve x.id q = (.ok w, q) := by
  unfold render at run
  split at run
  · next t q' done =>
    obtain ⟨after, -, worded⟩ := rest.worded_of_resolveAll done
    obtain ⟨all, same, listed⟩ := after.exists_listed worded s condition
    rw [same] at run
    cases run
    refine ⟨listed, fun x member => ?_⟩
    obtain ⟨w, known⟩ := worded x member
    exact ⟨w, resolve_of_kept known⟩
  · cases run

/-- Restricting a listing leaves out rows, and nothing else. -/
theorem Listed.sublist {all : List Record} (listed : l.Listed p s condition rows) (full : l.Listed p {} none all) :
    rows.Sublist all ∧ ∀ r, r ∈ rows ↔ r ∈ all ∧
      ∃ x ∈ l.graph.nodes, x.id = r.id ∧ ∃ w, l.resolve x.id p = (.ok w, p) ∧ Passes s condition x w := by
  have unrestricted : ∀ x w, Passes {} none x w := fun _ _ => ⟨⟨nofun, nofun, nofun⟩, nofun⟩
  have among : ∀ r ∈ rows, r ∈ all := by
    intro r member
    obtain ⟨x, present, w, word, -, row⟩ := (listed.mem_iff r).mp member
    exact (full.mem_iff r).mpr ⟨x, present, w, word, unrestricted x w, row⟩
  refine ⟨Record.sublist_of_before listed.sorted full.sorted among, fun r => ⟨fun member => ?_, ?_⟩⟩
  · obtain ⟨x, present, w, word, passes, row⟩ := (listed.mem_iff r).mp member
    exact ⟨among r member, x, present, row ▸ rfl, w, word, passes⟩
  · rintro ⟨member, x, present, same, w, word, passes⟩
    obtain ⟨y, present', v, word', -, rfl⟩ := (full.mem_iff r).mp member
    -- An id has one lexis, and resolving it has one result.
    obtain rfl : x = y := List.inj_on_of_nodup_map l.graph.ids_nodup present present' same
    obtain rfl : v = w := by
      rw [word] at word'
      cases word'
      rfl
    exact (listed.mem_iff _).mpr ⟨x, present, v, word, passes, rfl⟩

/-- Two lexicons of the same lexes with the same words have one listing of each selection. -/
theorem Listed.eq {m : Lexicon} {others : List Record} (listed : l.Listed p s condition rows)
    (listed' : m.Listed q s condition others) (nodes : ∀ x, x ∈ m.graph.nodes ↔ x ∈ l.graph.nodes)
    (words : ∀ id w, m.resolve id q = (.ok w, q) ↔ l.resolve id p = (.ok w, p)) : others = rows := by
  refine Record.eq_of_before listed'.sorted listed.sorted fun r => ?_
  rw [listed'.mem_iff, listed.mem_iff]
  simp only [nodes, words]

/-- The words of all lexes do not depend on their order in the graph, where no rules make words up. -/
theorem AtRest.get?_words_of_perm {g : Graph} {p' q' : Pass} {t t' : Table Word} (silent : l.generator = none)
    (perm : g.nodes.Perm l.graph.nodes) (rest : l.AtRest p) (done : l.resolveAll p = (.ok t, q))
    (rest' : AtRest { l with graph := g } p') (done' : resolveAll { l with graph := g } p' = (.ok t', q'))
    (id : String) : t'.get? id = t.get? id := by
  have settles := settles_wordless (l := { l with graph := g }) silent p'
  ext w
  rw [rest'.get?_resolveAll settles (by rw [done']), meaning_congr (Graph.get?_perm perm) wordless [],
    rest.get?_resolveAll (settles_wordless silent p) (by rw [done])]

end Rows

/-- Whatever was asked for before, a listing is in strict order, with one row for each lexis that passes and no
other. When all lexes have their words, restricting a listing only leaves out rows, and the order of the lexes
in the graph does not show. Only where words are made up may that order count, for which words these are. -/
theorem records_sorted_selection (l : Lexicon) (picks : Picks) (calls : List Call) :
    let p := l.session calls { picks := picks }
    (∀ s condition rows q, l.records s condition p = (.ok rows, q) → l.Listed q s condition rows) ∧
      ∀ t q, l.resolveAll p = (.ok t, q) →
        (∃ all, l.records {} none q = (.ok all, q) ∧ ∀ s condition, ∃ rows,
          l.records s condition q = (.ok rows, q) ∧ rows.Sublist all ∧ ∀ r, r ∈ rows ↔ r ∈ all ∧
            ∃ x ∈ l.graph.nodes, x.id = r.id ∧ ∃ w, l.resolve x.id q = (.ok w, q) ∧ Passes s condition x w) ∧
        ∀ (g : Graph) (calls' : List Call) (picks' : Picks) (t' : Table Word) (q' : Pass),
          let m : Lexicon := { l with graph := g }
          g.nodes.Perm l.graph.nodes → m.resolveAll (m.session calls' { picks := picks' }) = (.ok t', q') →
            (l.generator = none ∨ ∀ id, t'.get? id = t.get? id) →
              ∀ s condition, (m.records s condition q').1 = (l.records s condition q).1 := by
  intro p
  have rest : l.AtRest p := ((l.atRest_fresh picks).session calls).1
  refine ⟨fun s condition rows q run => (rest.listed_of_records run).2, ?_⟩
  intro t q done
  obtain ⟨after, kept, worded⟩ := rest.worded_of_resolveAll done
  constructor
  · obtain ⟨all, full, listedAll⟩ := after.exists_listed worded {} none
    refine ⟨all, full, fun s condition => ?_⟩
    obtain ⟨rows, run, listed⟩ := after.exists_listed worded s condition
    exact ⟨rows, run, listed.sublist listedAll⟩
  · intro g calls' picks' t' q' m perm done' alike s condition
    have rest' : m.AtRest (m.session calls' { picks := picks' }) := ((m.atRest_fresh picks').session calls').1
    obtain ⟨after', kept', worded'⟩ := rest'.worded_of_resolveAll done'
    have same : ∀ id, t'.get? id = t.get? id := by
      rcases alike with silent | same
      · exact rest.get?_words_of_perm silent perm done rest' done'
      · exact same
    have words : ∀ id w, m.resolve id q' = (.ok w, q') ↔ l.resolve id q = (.ok w, q) := by
      intro id w
      rw [after'.resolve_eq_iff_kept, after.resolve_eq_iff_kept, kept, kept', same]
    obtain ⟨rows, run, listed⟩ := after.exists_listed worded s condition
    obtain ⟨others, run', listed'⟩ := after'.exists_listed worded' s condition
    rw [run, run', listed.eq listed' (fun _ => perm.mem_iff) words]

/-- Two lexes of one spelling, the second derived from the first, and one that is spelled otherwise. -/
def homonyms : Lexicon where
  graph := {
    nodes := [
      { id := "bark-rind", word := some ⟨["b", "ark"]⟩ },
      { id := "ash", word := some ⟨["ash"]⟩ },
      { id := "bark-boat", etymons := [⟨"bark-rind", [], 0⟩] }]
    ids_nodup := by decide }

def turnedHomonyms : Graph where
  nodes := homonyms.graph.nodes.reverse
  ids_nodup := by decide

/-- Only those that are spelled so, wherever they have their words from. -/
def barks : Predicate :=
  .field .word (.equals "bark")

/-- Homonyms are listed by id, also the one that has its word from its etymon only. -/
theorem homonyms_listed_barks :
    ∃ t q rows, homonyms.resolveAll {} = (.ok t, q) ∧ homonyms.records {} (some barks) q = (.ok rows, q) ∧
      homonyms.Listed q {} (some barks) rows ∧ rows.map Record.id = ["bark-boat", "bark-rind"] ∧
        let m : Lexicon := { homonyms with graph := turnedHomonyms }
        ∃ t' q', m.resolveAll (m.session [.resolve "ash"] {}) = (.ok t', q') ∧
          (m.records {} (some barks) q').1 = .ok rows := by
  obtain ⟨t, q, done, evaluated⟩ : ∃ t q, homonyms.resolveAll {} = (.ok t, q) ∧
      decide ((homonyms.recordsOf (some barks) (homonyms.graph.select {}) q).1 =
        .ok [⟨"bark-rind", "", "bark", "", .none, false, [], ""⟩,
          ⟨"bark-boat", "", "bark", "", .none, false, [], ""⟩]) = true :=
    exists_of_evaluated (by decide +kernel)
  obtain ⟨t', q', done', -⟩ : ∃ t' q', resolveAll { homonyms with graph := turnedHomonyms }
      (session { homonyms with graph := turnedHomonyms } [.resolve "ash"] {}) = (.ok t', q') ∧ true = true :=
    exists_of_evaluated (by decide +kernel)
  obtain ⟨⟨all, -, selections⟩, reordered⟩ := (records_sorted_selection homonyms {} []).2 t q done
  obtain ⟨rows, run, -, -⟩ := selections {} (some barks)
  have perm : turnedHomonyms.nodes.Perm homonyms.graph.nodes := List.reverse_perm _
  have alike := reordered turnedHomonyms [.resolve "ash"] {} t' q' perm done' (.inl rfl) {} (some barks)
  have after : homonyms.session [.resolveAll] {} = q := congrArg Prod.snd done
  have listed := (records_sorted_selection homonyms {} [.resolveAll]).1 {} (some barks) rows q
    (by rw [after]; exact run)
  have order : rows.map Record.id = ["bark-boat", "bark-rind"] := by
    have unsorted := of_decide_eq_true evaluated
    unfold records at run
    split at run
    · next found _ same =>
      rw [same] at unsorted
      cases unsorted
      cases run
      simp [List.mergeSort, Record.notAfter]
    · cases run
  refine ⟨t, q, rows, done, run, listed, order, t', q', done', ?_⟩
  rw [alike, run]

end Lexicon

end Etymology
