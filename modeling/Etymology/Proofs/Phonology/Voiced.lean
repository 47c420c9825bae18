import Etymology.Proofs.Letters.Legible
import Etymology.Proofs.Phonology.Declared
import Etymology.Proofs.Phonology.Pattern

namespace Etymology

/-- No phoneme of a pattern is empty. -/
def Pattern.Voiced (pattern : Pattern) : Prop :=
  .phoneme "" ∉ pattern

theorem Pattern.voiced_ofText (s : String) : (ofText s).Voiced :=
  fun member => (spelled_of_mem_ofText member).nonempty rfl

theorem Pattern.voiced_of_ofValue {v : Value} {pattern : Pattern} (read : ofValue v = .ok pattern) :
    pattern.Voiced := by
  unfold ofValue at read
  split at read
  · next s =>
    cases read
    exact voiced_ofText s
  · cases read

namespace Phonology

/-- Whatever can be picked has no empty phoneme. -/
structure Voiced (p : Phonology) : Prop where
  groups : ∀ {symbol alternatives}, p.groups.get? symbol = some alternatives → ∀ pattern ∈ alternatives, pattern.Voiced
  lexisTypes : ∀ {key shapes}, p.lexisTypes.get? key = some shapes → ∀ pattern ∈ shapes, pattern.Voiced

theorem voiced_of_alternativesOf {table : String} {key : Scalar} {v : Value} {alternatives : List Pattern}
    (read : alternativesOf table key v = .ok alternatives) : ∀ pattern ∈ alternatives, pattern.Voiced := by
  intro pattern member
  unfold alternativesOf at read
  split at read
  · next s =>
    cases read
    obtain rfl := List.mem_singleton.mp member
    exact Pattern.voiced_ofText s
  · obtain ⟨v, -, here⟩ := mem_of_mapM_eq_ok read member
    exact Pattern.voiced_of_ofValue here
  · cases read

theorem Built.voiced {p : Phonology} (built : p.Built) : p.Voiced := by
  obtain ⟨groups, types⟩ := built.forall_alternatives voiced_of_alternativesOf
  exact ⟨fun found => groups _ (Table.mem_entries_of_get? found),
    fun found => types _ (Table.mem_entries_of_get? found)⟩

end Phonology

namespace Generator

variable {g : Generator} {letters spoken : List String} {picks : Picks}

/-- No pattern in progress has an empty phoneme, and none that is entered has. -/
theorem expand_legible {stack : List Pattern} (voiced : g.phonology.Voiced) (said : ∀ l ∈ letters, l ≠ "")
    (inside : ∀ pattern ∈ stack, pattern.Voiced) (run : (g.expand picks letters stack).1 = .ok spoken) :
    ∀ l ∈ spoken, l ≠ "" := by
  fun_induction g.expand picks letters stack with
  | case1 picks letters =>
    cases run
    exact said
  | case2 picks letters outer ih => exact ih said (List.forall_mem_cons.mp inside).2 run
  | case3 picks letters text pattern outer ih =>
    obtain ⟨here, rest⟩ := List.forall_mem_cons.mp inside
    have spoken : text ≠ "" := fun empty => here (empty ▸ List.mem_cons_self)
    refine ih ?_ (List.forall_mem_cons.mpr ⟨fun later => here (List.mem_cons_of_mem _ later), rest⟩) run
    rw [List.forall_mem_append, List.forall_mem_singleton]
    exact ⟨said, spoken⟩
  | case4 => cases run
  | case5 => cases run
  | case6 => cases run
  | case7 => cases run
  | case8 picks letters symbol pattern outer alternatives found filled low alternative after picked ih =>
    obtain ⟨here, rest⟩ := List.forall_mem_cons.mp inside
    have entered := voiced.groups found alternative (Picks.mem_of_choose? picked)
    refine ih said (List.forall_mem_cons.mpr ⟨entered, List.forall_mem_cons.mpr ⟨fun later => ?_, rest⟩⟩) run
    exact here (List.mem_cons_of_mem _ later)

theorem legible_of_createWordFor {key : Value} {after : Picks} {w : Word} (voiced : g.phonology.Voiced)
    (run : g.createWordFor key picks = (.ok w, after)) : w.Legible := by
  obtain ⟨s, shapes, shape, next, -, found, picked, expanded⟩ := createWordFor_ok run
  have shaped := voiced.lexisTypes found shape (Picks.mem_of_choose? picked)
  have run' : (g.expand next [] [shape]).1 = .ok w.letters := by rw [expanded]
  exact expand_legible voiced (List.forall_mem_nil _) (List.forall_mem_singleton.mpr shaped) run'

end Generator

end Etymology
