import Etymology.Proofs.Control
import Etymology.Proofs.Graph.Change
import Etymology.Proofs.Graph.Seeding
import Etymology.Proofs.Lexicon.History
import Etymology.Proofs.Lexicon.Steady

namespace Etymology

/-- The lexis with the word that is kept for it, if it is left to phonetic rules. -/
def Lexis.supplied (kept : Table Word) (x : Lexis) : Lexis :=
  if x.isGenerated then { x with word := kept.get? x.id } else x

namespace Lexis

variable {kept : Table Word} {x : Lexis}

theorem id_supplied (kept : Table Word) (x : Lexis) : (x.supplied kept).id = x.id := by
  unfold supplied
  split <;> rfl

theorem withWord_supplied (kept : Table Word) (x : Lexis) : (x.supplied kept).withWord = x.withWord := by
  unfold supplied
  split <;> rfl

theorem supplied_given (given : x.isGenerated = false) : x.supplied kept = x := by
  rw [supplied, given, if_neg Bool.false_ne_true]

theorem supplied_generated {w : Word} (left : x.isGenerated = true) (word : kept.get? x.id = some w) :
    x.supplied kept = x.withWord w := by
  rw [supplied, if_pos left, word, withWord]

/-- Words kept for other lexes do not matter. -/
theorem supplied_put {id : String} (w : Word) (other : x.id ≠ id) : x.supplied (kept.put id w) = x.supplied kept := by
  rw [supplied, supplied, Table.get?_put_of_ne _ _ other.symm]

end Lexis

namespace Lexicon

variable {l : Lexicon}

/-- The lexes that are left to phonetic rules, in their order. -/
def unworded (xs : List Lexis) : List String :=
  (xs.filter Lexis.isGenerated).map Lexis.id

/-- Seeding and resolving go lexis by lexis. The graph has been seeded so far with the words that the pass keeps,
and both come to the next lexis with the same choices to make. -/
theorem resolveEach_of_seedEach {gen : Generator} (voiced : l.generator = some gen) {g h : Graph}
    {done xs : List Lexis} {p : Pass} {after : Picks} (nodes : l.graph.nodes = done ++ xs)
    (seeded : g.nodes = done.map (Lexis.supplied p.words) ++ xs) (idle : p.inProgress = [])
    (unknown : ∀ x ∈ xs, p.words.get? x.id = none) (run : Graph.seedEach gen xs g p.picks = (.ok h, after)) :
    ∃ q, l.resolveEach (unworded xs) p = (.ok (), q) ∧ q.picks = after ∧
      h.nodes = l.graph.nodes.map (Lexis.supplied q.words) := by
  induction xs generalizing done g p with
  | nil =>
    cases run
    rw [List.append_nil] at nodes seeded
    exact ⟨p, rfl, rfl, by rw [seeded, nodes]⟩
  | cons x xs ih =>
    obtain ⟨here, later⟩ := List.forall_mem_cons.mp unknown
    have distinct := l.graph.ids_nodup
    rw [nodes, List.map_append, List.map_cons, List.nodup_append, List.nodup_cons] at distinct
    obtain ⟨-, ⟨after, -⟩, before⟩ := distinct
    have next : l.graph.nodes = (done ++ [x]) ++ xs := by rw [nodes, List.append_assoc]; rfl
    cases left : x.isGenerated with
    | false =>
      rw [Graph.seedEach, left, if_neg Bool.false_ne_true] at run
      rw [unworded, List.filter_cons_of_neg (by simp [left])]
      refine ih next ?_ idle later run
      rw [seeded, List.map_append, List.map_cons, Lexis.supplied_given left, List.append_assoc]
      rfl
    | true =>
      rw [Graph.seedEach, left, if_pos rfl] at run
      have resolved := resolve_of_isGenerated voiced (nodes ▸ List.mem_append_right done List.mem_cons_self) left here
        (by rw [idle]; exact List.not_mem_nil)
      split at run
      · next w picks made =>
        rw [made] at resolved
        rw [unworded, List.filter_cons_of_pos left, List.map_cons, resolveEach, resolved]
        refine ih next ?_ idle ?_ run
        · have kept : done.map (Lexis.supplied (p.words.put x.id w)) = done.map (Lexis.supplied p.words) := by
            refine List.map_congr_left fun y member => Lexis.supplied_put w ?_
            exact before y.id (List.mem_map.mpr ⟨y, member, rfl⟩) x.id List.mem_cons_self
          change _ = (done ++ [x]).map (Lexis.supplied (p.words.put x.id w)) ++ xs
          rw [Graph.nodes_set (y := x.withWord w) seeded rfl, List.map_append, kept, List.map_cons,
            Lexis.supplied_generated left (Table.get?_put_self _ _ _), List.append_assoc]
          rfl
        · intro y member
          have other : x.id ≠ y.id := fun same => after (same ▸ List.mem_map.mpr ⟨y, member, rfl⟩)
          exact (Table.get?_put_of_ne _ _ other).trans (later y member)
      · cases run

/-- What a lexis without a word and without etymons comes to where all generated words are kept. -/
def keptOutcome (p : Pass) (x : Lexis) : Except Fault Word :=
  if x.generate.isFalsy then .error (.underspecified x.id) else p.wordOf x.id

theorem keptOutcome_generated {p : Pass} {x : Lexis} {w : Word} (left : x.isGenerated = true)
    (kept : p.words.get? x.id = some w) : keptOutcome p x = .ok w := by
  obtain ⟨-, keyed, -⟩ := Lexis.of_isGenerated left
  rw [keptOutcome, keyed, if_neg Bool.false_ne_true, Pass.wordOf_eq_ok.mpr kept]

theorem settles_of_supplied {p : Pass} (supplied : l.Supplied p) : l.Settles (keptOutcome p) p := by
  intro id x found bare unlinked
  cases left : x.isGenerated with
  | false =>
    have falsy := Lexis.falsy_of_given left bare unlinked
    exact .inr ⟨.underspecified x.id, by rw [keptOutcome, if_pos falsy], fun picks => by rw [generated, if_pos falsy]⟩
  | true =>
    obtain ⟨w, kept⟩ := Table.exists_get?_of_contains (supplied x (Graph.mem_of_get? found) left)
    exact .inl ⟨w, Graph.id_of_get? found ▸ kept, keptOutcome_generated left kept⟩

/-- The pass keeps a word, and not the empty one, for every lexis that is left to phonetic rules. -/
def Worded (l : Lexicon) (p : Pass) : Prop :=
  ∀ x ∈ l.graph.nodes, x.isGenerated = true →
    ∃ w, p.words.get? x.id = some w ∧ (x.withWord w).literal? = some w

section Populated

variable {g : Graph} {p : Pass}

theorem Worded.supplied (worded : l.Worded p) : l.Supplied p := by
  intro x member left
  obtain ⟨w, kept, -⟩ := worded x member left
  exact Table.contains_of_get? kept

/-- With these words in the place of the keys nothing is left to phonetic rules. -/
theorem Worded.settled (worded : l.Worded p) (populated : g.nodes = l.graph.nodes.map (Lexis.supplied p.words)) :
    ∀ y ∈ g.nodes, y.isGenerated = false := by
  intro y member
  rw [populated] at member
  obtain ⟨x, inside, rfl⟩ := List.mem_map.mp member
  cases left : x.isGenerated with
  | false => rw [Lexis.supplied_given left, left]
  | true =>
    obtain ⟨w, kept, literal⟩ := worded x inside left
    rw [Lexis.supplied_generated left kept, Lexis.isGenerated, literal]
    rfl

/-- All means then what it means to the pass. No lexis that is left to phonetic rules is ever in progress, since it
has no etymons. -/
theorem Worded.meaning_eq (worded : l.Worded p) (populated : g.nodes = l.graph.nodes.map (Lexis.supplied p.words))
    (other : Option Generator) (path : List String) (id : String)
    (working : ∀ a ∈ path, ∀ x, l.graph.get? a = some x → x.isGenerated = false) :
    meaning { l with graph := g, generator := other } wordless path id = l.meaning (keptOutcome p) path id := by
  have look := Graph.get?_of_map (Lexis.id_supplied p.words) populated
  have given {a : String} {x : Lexis} (found : l.graph.get? a = some x) (given : x.isGenerated = false) :
      g.get? a = some x := by
    rw [look, found, Option.map_some, Lexis.supplied_given given]
  fun_induction l.meaning (keptOutcome p) path id with
  | case1 path id absent => exact meaning_absent (by rw [look, absent]; rfl)
  | case2 path id x found w literal =>
    exact meaning_literal (given found (by simp [Lexis.isGenerated, literal])) literal
  | case3 path id x found bare again => exact meaning_cycle (given found (working id again x found)) bare again
  | case4 path id x found bare fresh unlinked =>
    have unlinked := List.isEmpty_iff.mp unlinked
    cases left : x.isGenerated with
    | false =>
      have falsy := Lexis.falsy_of_given left bare unlinked
      rw [meaning_leaf (given found left) bare fresh unlinked, wordless, keptOutcome, if_pos falsy, if_pos falsy]
    | true =>
      obtain ⟨w, kept, literal⟩ := worded x (Graph.mem_of_get? found) left
      rw [keptOutcome_generated left kept]
      exact meaning_literal (by rw [look, found, Option.map_some, Lexis.supplied_generated left kept]) literal
  | case5 path id x found bare fresh linked ih =>
    have linked : x.etymons ≠ [] := fun none => linked (List.isEmpty_iff.mpr none)
    have derived : x.isGenerated = false := by simp [Lexis.isGenerated, linked]
    rw [meaning_derived (given found derived) bare fresh linked]
    refine derive_congr_withWord (fun e _ => ?_) fun e _ => ih e.ancestor ?_
    · rw [look, Option.map_map]
      exact congrFun (congrArg Option.map (funext (Lexis.withWord_supplied p.words))) _
    · intro a onPath y atA
      rcases List.mem_append.mp onPath with before | last
      · exact working a before y atA
      · obtain rfl := List.mem_singleton.mp last
        obtain rfl := Option.some.inj (found.symm.trans atA)
        exact derived

end Populated

/-- The two ways to come by generated words agree, as long as none of these is empty. A graph is seeded by giving the
lexes that are left to phonetic rules, and no others, the words that a pass comes to which resolves these lexes first,
in order and with the same choices. From there on neither makes another choice, and resolving all comes to the same
fault or to the same words. -/
theorem seeded_resolveAll {gen : Generator} {picks after : Picks} {seeded : Graph} (voiced : l.generator = some gen)
    (run : l.graph.seed gen picks = (.ok seeded, after))
    (audible : ∀ x ∈ l.graph.nodes, x.isGenerated = true → ∀ y ∈ seeded.get? x.id, y.literal? ≠ none)
    (other : Option Generator) :
    ∃ p, l.resolveEach (unworded l.graph.nodes) { picks := picks } = (.ok (), p) ∧
      seeded.nodes = l.graph.nodes.map (Lexis.supplied p.words) ∧
      p.picks = after ∧ (l.resolveAll p).2.picks = after ∧
      let populated : Lexicon := { l with graph := seeded, generator := other }
      ∀ r, (populated.resolveAll { picks := r }).2.picks = r ∧
        (populated.resolveAll { picks := r }).1.map Table.get? = (l.resolveAll p).1.map Table.get? := by
  obtain ⟨p, resolved, choices, nodes⟩ := resolveEach_of_seedEach (p := { picks := picks }) voiced
    (List.nil_append l.graph.nodes).symm rfl rfl (fun _ _ => rfl) run
  have fresh := l.atRest_fresh picks
  have rest := (fresh.resolveEach (unworded l.graph.nodes)).1
  have kept := fresh.kept_of_resolveEach (congrArg Prod.fst resolved)
  rw [resolved] at rest kept
  have worded : l.Worded p := by
    intro x member left
    obtain ⟨w, known⟩ := kept x.id (List.mem_map_of_mem (List.mem_filter.mpr ⟨member, left⟩))
    have put : seeded.get? x.id = some (x.withWord w) := by
      rw [Graph.get?_of_map (Lexis.id_supplied p.words) nodes, Graph.get?_of_mem member, Option.map_some,
        Lexis.supplied_generated left known]
    have full := audible x member left _ put
    exact ⟨w, known, by simpa [Lexis.literal?, Lexis.withWord, Option.filter] using full⟩
  refine ⟨p, resolved, nodes, choices, ?_, ?_⟩
  · rw [← choices]
    exact (worded.supplied.after .resolveAll).picks
  · intro populated r
    have settled : ∀ y ∈ populated.graph.nodes, y.isGenerated = false := worded.settled nodes
    have ids : seeded.ids = l.graph.ids := by
      rw [Graph.ids, nodes, List.map_map]
      exact List.map_congr_left fun x _ => Lexis.id_supplied p.words x
    refine ⟨((supplied_of_settled settled _).after .resolveAll).picks, ?_⟩
    exact rest.resolveAll_congr (settles_of_supplied worded.supplied) (populated.atRest_fresh r)
      (settles_of_settled settled _) ids fun id =>
        worded.meaning_eq nodes other [] id fun a member => absurd member List.not_mem_nil

/-- Syllables of one of two consonants and a vowel. -/
def consonantChoice : Generator where
  phonology := {
    groups := ⟨[("C", [[.phoneme "t"], [.phoneme "k"]])], by decide⟩
    lexisTypes := ⟨[("stem", [[.group "C", .phoneme "a"]])], by decide⟩ }

/-- Two stems that are such syllables, and what is derived from the second. -/
def coinage : Lexicon where
  graph := {
    nodes := [
      { id := "voiced", etymons := [⟨"second", ["soften"], 0⟩] },
      { id := "first", generate := .text "stem" },
      { id := "second", generate := .text "stem" }]
    ids_nodup := by decide }
  transforms := ⟨[("soften", ⟨"soften", [.letterReplace ⟨["t"]⟩ ⟨["d"]⟩ .all], none⟩)], by decide⟩
  generator := some consonantChoice

/-- The first stem makes its choices first both ways, although the second is needed before it. -/
theorem coinage_resolveAll :
    ∃ seeded after, coinage.graph.seed consonantChoice ⟨[0, 1, 0, 0], 0⟩ = (.ok seeded, after) ∧ after.used = 4 ∧
      ∃ p, coinage.resolveEach ["first", "second"] { picks := ⟨[0, 1, 0, 0], 0⟩ } = (.ok (), p) ∧
        (coinage.resolveAll p).2.picks = after ∧
        let populated : Lexicon := { coinage with graph := seeded, generator := none }
        (populated.resolveAll {}).1.map (·.get? "voiced") = .ok (some ⟨["d", "a"]⟩) ∧
          (populated.resolveAll {}).1.map Table.get? = (coinage.resolveAll p).1.map Table.get? := by
  obtain ⟨seeded, after, run, evaluated⟩ : ∃ seeded after,
      coinage.graph.seed consonantChoice ⟨[0, 1, 0, 0], 0⟩ = (.ok seeded, after) ∧
        decide ((∀ x ∈ coinage.graph.nodes, x.isGenerated = true → ∀ y ∈ seeded.get? x.id, y.literal? ≠ none) ∧
          after.used = 4 ∧ (resolveAll { coinage with graph := seeded, generator := none } {}).1.map (·.get? "voiced") =
            .ok (some ⟨["d", "a"]⟩)) = true :=
    exists_of_evaluated (by decide +kernel)
  obtain ⟨audible, used, word⟩ := of_decide_eq_true evaluated
  obtain ⟨p, resolved, -, -, choices, alike⟩ := seeded_resolveAll (l := coinage) rfl run audible none
  exact ⟨seeded, after, run, used, p, resolved, choices, word, (alike {}).2⟩

end Lexicon

end Etymology
