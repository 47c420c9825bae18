import Etymology.Proofs.Graph.Daughter
import Mathlib.Data.List.Forall2

namespace Etymology

namespace DaughterPlan

/-- Ids for some lexes in turn, each of which is taken from then on. -/
inductive NamedInTurn (plan : DaughterPlan) : List String → List Lexis → List String → Prop
  | nil {taken} : NamedInTurn plan taken [] []
  | cons {taken x xs candidate id ids} : plan.candidate? x = some candidate →
      Graph.NamedFrom taken candidate id → NamedInTurn plan (taken ++ [id]) xs ids →
      NamedInTurn plan taken (x :: xs) (id :: ids)

/-- A daughter has neither a word nor a key. It is what its lexis is but for the language, has the further tags
that the lexis lacks behind those of the lexis, and has one link, to the lexis. -/
structure Mirrors (plan : DaughterPlan) (x y : Lexis) : Prop where
  word : y.word = none
  generate : y.generate = .null
  language : y.language = plan.language
  definition : y.definition = x.definition
  kind : y.kind = x.kind
  pos : y.pos = x.pos
  archaic : y.archaic = x.archaic
  history : y.history = x.history
  tags : y.tags = x.tags ++ plan.extraTags.filter (· ∉ x.tags)
  etymons : y.etymons = [{ ancestor := x.id, transforms := plan.transforms, order := 0 }]

section Naming

variable {plan : DaughterPlan} {taken ids : List String} {xs : List Lexis}

theorem NamedInTurn.nodup (named : plan.NamedInTurn taken xs ids) (distinct : taken.Nodup) :
    (taken ++ ids).Nodup := by
  induction named with
  | nil => rwa [List.append_nil]
  | @cons taken x xs candidate id ids _ here _ ih =>
    have further : (taken ++ [id]).Nodup := by
      refine List.nodup_append.mpr ⟨distinct, List.nodup_singleton id, ?_⟩
      rintro a old b new rfl
      exact here.not_mem (List.mem_singleton.mp new ▸ old)
    have all := ih further
    rwa [List.append_assoc] at all

theorem mirrors_daughterOf (plan : DaughterPlan) (x : Lexis) (id : String) : plan.Mirrors x (plan.daughterOf x id) where
  word := rfl
  generate := rfl
  language := rfl
  definition := rfl
  kind := rfl
  pos := rfl
  archaic := rfl
  history := rfl
  tags := by simp [daughterOf]
  etymons := rfl

theorem forall₂_mirrors_daughters (length : ids.length = xs.length) :
    List.Forall₂ plan.Mirrors xs (plan.daughters xs ids) := by
  induction xs generalizing ids with
  | nil => exact .nil
  | cons x xs ih =>
    cases ids with
    | nil => cases length
    | cons id ids => exact .cons (plan.mirrors_daughterOf x id) (ih (Nat.succ.inj length))

theorem map_id_daughters (length : ids.length = xs.length) : (plan.daughters xs ids).map Lexis.id = ids := by
  rw [daughters, List.map_map]
  exact List.map_snd_zip (Nat.le_of_eq length)

/-- Daughters that have been added were named in turn, behind the lexes that were there. -/
theorem namedInTurn_of_addDaughters {g h : Graph} (run : plan.addDaughters xs g = .ok (h, ids)) :
    plan.NamedInTurn g.ids xs ids := by
  induction xs generalizing g ids with
  | nil =>
    cases run
    exact .nil
  | cons x xs ih =>
    rw [addDaughters] at run
    split at run
    · cases run
    · next candidate name =>
      obtain ⟨grown, added, nodes⟩ :=
        Graph.add_eq (x := plan.daughterOf x (g.freshId candidate)) (g.freshId_not_mem candidate)
      have taken : grown.ids = g.ids ++ [g.freshId candidate] := by
        rw [Graph.ids, nodes, List.map_append]
        rfl
      simp only [added] at run
      split at run
      · next h' ids' rest =>
        cases run
        have later := ih rest
        rw [taken] at later
        exact .cons name (g.freshId_named candidate) later
      · cases run

end Naming

end DaughterPlan

/-- Wherever the template names each lexis of the source language that the condition holds of, a daughter language
comes about. What was there stays as it was. Behind it stands one new lexis for each of those, in their order,
which mirrors the one that it is made from; the ids of the new ones are found in turn, and all ids differ. -/
theorem Graph.withDaughter_fresh {g : Graph} {plan : DaughterPlan}
    (named : ∀ x ∈ g.nodes, x.language = plan.source → Predicate.holdsOpt plan.condition x = true →
      plan.candidate? x ≠ none) :
    ∃ h ids news, g.withDaughter plan = .ok (h, ids) ∧ h.nodes = g.nodes ++ news ∧ news.map Lexis.id = ids ∧
      (g.ids ++ ids).Nodup ∧
      let chosen := g.nodes.filter fun x => x.language == plan.source && Predicate.holdsOpt plan.condition x
      List.Forall₂ plan.Mirrors chosen news ∧ plan.NamedInTurn g.ids chosen ids := by
  have each : ∀ x ∈ g.nodes.filter plan.selects, plan.candidate? x ≠ none := by
    intro x member
    obtain ⟨inside, selected⟩ := List.mem_filter.mp member
    simp only [DaughterPlan.selects, Bool.and_eq_true, beq_iff_eq] at selected
    exact named x inside selected.1 selected.2
  obtain ⟨h, ids, run, length, grown⟩ := withDaughter_grown each
  have inTurn : plan.NamedInTurn g.ids (g.nodes.filter plan.selects) ids :=
    DaughterPlan.namedInTurn_of_addDaughters run
  exact ⟨h, ids, _, run, grown.nodes, DaughterPlan.map_id_daughters length, inTurn.nodup g.ids_nodup,
    DaughterPlan.forall₂_mirrors_daughters length, inTurn⟩

/-- Two Latin stems, and two Folk words under ids that daughters might have. -/
def neighbours : Graph where
  nodes := [
    { id := "stem", word := some ⟨["s", "t", "a"]⟩, language := "Latin", tags := ["root"] },
    { id := "old", language := "Folk", etymons := [⟨"stem", [], 0⟩] },
    { id := "old-3", language := "Folk", etymons := [⟨"stem", [], 0⟩] },
    { id := "bark", generate := .text "root", language := "Latin" }]
  ids_nodup := by decide

/-- Every daughter has the slug of the language for its candidate. -/
def crowded : DaughterPlan where
  source := "Latin"
  language := "Old"
  extraTags := ["derived", "root"]
  idTemplate := "\x7blanguage\x7d"

/-- The first daughter takes a number that the second then finds taken, like the one after it. -/
theorem neighbours_crowded :
    (∀ x ∈ neighbours.nodes, x.language = crowded.source → Predicate.holdsOpt crowded.condition x = true →
      crowded.candidate? x ≠ none) ∧
      ∃ h news, neighbours.withDaughter crowded = .ok (h, ["old-2", "old-4"]) ∧
        h.nodes = neighbours.nodes ++ news ∧ (neighbours.ids ++ ["old-2", "old-4"]).Nodup := by
  have named : ∀ x ∈ neighbours.nodes, x.language = crowded.source →
      Predicate.holdsOpt crowded.condition x = true → crowded.candidate? x ≠ none := by
    decide +kernel
  obtain ⟨h, ids, news, run, nodes, -, distinct, -⟩ := Graph.withDaughter_fresh named
  have evaluated : ((neighbours.withDaughter crowded).toOption.any fun made =>
      decide (made.2 = ["old-2", "old-4"])) = true := by
    decide +kernel
  rw [run] at evaluated
  obtain rfl : ids = ["old-2", "old-4"] := of_decide_eq_true evaluated
  exact ⟨named, h, news, run, nodes, distinct⟩

end Etymology
