import Etymology.Finding
import Etymology.Proofs.Control
import Etymology.Proofs.Phonology.Choices
import Etymology.Proofs.Table

namespace Etymology

theorem Table.mem_entries_put {α : Type} {t : Table α} {key : String} {a : α} {e : String × α}
    (member : e ∈ (t.put key a).entries) : e = (key, a) ∨ e ∈ t.entries := by
  unfold put at member
  split at member
  · obtain ⟨old, inside, same⟩ := List.mem_map.mp member
    unfold putEntry at same
    split at same
    · exact .inl same.symm
    · exact .inr (same ▸ inside)
  · rcases List.mem_append.mp member with old | new
    · exact .inr old
    · exact .inl (List.mem_singleton.mp new)

theorem Table.mem_entries_putAll {α : Type} {t : Table α} {entries : List (String × α)} {e : String × α}
    (member : e ∈ (t.putAll entries).entries) : e ∈ entries ∨ e ∈ t.entries := by
  unfold putAll at member
  induction entries generalizing t with
  | nil => exact .inr member
  | cons first entries ih =>
    rcases ih member with later | before
    · exact .inl (List.mem_cons_of_mem first later)
    · rcases mem_entries_put before with rfl | old
      · exact .inl List.mem_cons_self
      · exact .inr old

namespace Phonology

/-- Phonologies as documents make them: read from a value, or merged from such. -/
inductive Built : Phonology → Prop
  | read {v p} : ofValue v = .ok p → Built p
  | merged {p q} : Built p → Built q → Built (p.merge q)

theorem alternativesOf_ne_nil {table : String} {key : Scalar} {v : Value} {alternatives : List Pattern}
    (read : alternativesOf table key v = .ok alternatives) : alternatives ≠ [] := by
  unfold alternativesOf at read
  split at read
  · cases read
    simp
  · next first rest =>
    rintro rfl
    cases mapM_eq_ok_iff.mp read
  · cases read

section Built

variable {Holds : List Pattern → Prop}
  (read : ∀ {table key v alternatives}, alternativesOf table key v = .ok alternatives → Holds alternatives)

include read

theorem tableOfEntries_forall {name : String} {t table : Table (List Pattern)} {entries : List (Scalar × Value)}
    (before : ∀ e ∈ t.entries, Holds e.2) (made : tableOfEntries name t entries = .ok table) :
    ∀ e ∈ table.entries, Holds e.2 := by
  induction entries generalizing t with
  | nil =>
    cases made
    exact before
  | cons entry entries ih =>
    obtain ⟨key, v⟩ := entry
    obtain ⟨alternatives, here, rest⟩ := bind_eq_ok.mp made
    obtain ⟨symbol, -, rest⟩ := bind_eq_ok.mp rest
    refine ih (fun e member => ?_) rest
    rcases Table.mem_entries_put member with rfl | old
    · exact read here
    · exact before e old

theorem tableOf_forall {name : String} {v : Value} {table : Table (List Pattern)} (made : tableOf name v = .ok table) :
    ∀ e ∈ table.entries, Holds e.2 := by
  unfold tableOf at made
  split at made
  · exact tableOfEntries_forall read (by intro e member; cases member) made
  · split at made
    · cases made
      intro e member
      cases member
    · cases made

/-- What holds of all alternatives that are read holds of all that a phonology has. -/
theorem Built.forall_alternatives {p : Phonology} (built : p.Built) :
    (∀ e ∈ p.groups.entries, Holds e.2) ∧ ∀ e ∈ p.lexisTypes.entries, Holds e.2 := by
  induction built with
  | @read v p made =>
    unfold ofValue at made
    split at made
    · next entries =>
      obtain ⟨groups, groupsMade, rest⟩ := bind_eq_ok.mp made
      obtain ⟨types, typesMade, same⟩ := bind_eq_ok.mp rest
      cases same
      exact ⟨tableOf_forall read groupsMade, tableOf_forall read typesMade⟩
    · cases made
  | merged _ _ ihp ihq =>
    constructor
    · intro e member
      rcases Table.mem_entries_putAll member with new | old
      · exact ihq.1 e new
      · exact ihp.1 e old
    · intro e member
      rcases Table.mem_entries_putAll member with new | old
      · exact ihq.2 e new
      · exact ihp.2 e old

end Built

/-- Every group and every type of word has an alternative. -/
theorem Built.ne_nil {p : Phonology} (built : p.Built) :
    (∀ e ∈ p.groups.entries, e.2 ≠ []) ∧ ∀ e ∈ p.lexisTypes.entries, e.2 ≠ [] :=
  built.forall_alternatives alternativesOf_ne_nil

/-- A pattern refers to declared groups only. -/
def Declares (p : Phonology) (pattern : Pattern) : Prop :=
  ∀ symbol, .group symbol ∈ pattern → p.groups.contains symbol = true

/-- Whatever can be picked exists and refers to what exists. -/
structure Closed (p : Phonology) : Prop where
  groups : ∀ {symbol alternatives}, p.groups.get? symbol = some alternatives →
    alternatives ≠ [] ∧ ∀ pattern ∈ alternatives, p.Declares pattern
  lexisTypes : ∀ {key shapes}, p.lexisTypes.get? key = some shapes →
    shapes ≠ [] ∧ ∀ pattern ∈ shapes, p.Declares pattern

theorem declares_of_undeclaredIn_eq_nil {p : Phonology} {name : PhonologyTable} {t : Table (List Pattern)}
    (complete : p.undeclaredIn name t = []) {e : String × List Pattern} (entry : e ∈ t.entries)
    {pattern : Pattern} (member : pattern ∈ e.2) : p.Declares pattern := by
  intro symbol inside
  have quiet := List.flatMap_eq_nil_iff.mp (List.flatMap_eq_nil_iff.mp complete e entry) pattern member
  have item := List.filterMap_eq_nil_iff.mp quiet _ inside
  cases present : p.groups.contains symbol with
  | true => rfl
  | false => simp [present] at item

theorem Built.closed {p : Phonology} (built : p.Built) (complete : p.undeclaredGroups = []) : p.Closed := by
  obtain ⟨groups, types⟩ := List.append_eq_nil_iff.mp complete
  constructor
  · intro symbol alternatives found
    have entry := Table.mem_entries_of_get? found
    exact ⟨built.ne_nil.1 _ entry, fun pattern member => declares_of_undeclaredIn_eq_nil groups entry member⟩
  · intro key shapes found
    have entry := Table.mem_entries_of_get? found
    exact ⟨built.ne_nil.2 _ entry, fun pattern member => declares_of_undeclaredIn_eq_nil types entry member⟩

end Phonology

namespace Generator

/-- Every pattern in progress refers to declared groups, before and after each choice, so that the
look-up of a group never fails. -/
theorem expand_error {g : Generator} {picks : Picks} {letters : List String} {stack : List Pattern}
    {fault : Fault} (closed : g.phonology.Closed)
    (declared : ∀ pattern ∈ stack, g.phonology.Declares pattern)
    (failed : (g.expand picks letters stack).1 = .error fault) :
    ∃ symbol, fault = .tooDeep symbol g.limit := by
  fun_induction g.expand picks letters stack with
  | case1 => cases failed
  | case2 picks letters outer ih =>
    exact ih (fun pattern member => declared pattern (List.mem_cons_of_mem [] member)) failed
  | case3 picks letters text pattern outer ih =>
    obtain ⟨here, rest⟩ := List.forall_mem_cons.mp declared
    refine ih (List.forall_mem_cons.mpr ⟨fun symbol member => ?_, rest⟩) failed
    exact here symbol (List.mem_cons_of_mem _ member)
  | case4 picks letters symbol pattern outer missing =>
    have present := declared _ List.mem_cons_self symbol List.mem_cons_self
    rw [(Table.get?_eq_none _ _).mp missing] at present
    cases present
  | case5 picks letters symbol pattern outer alternatives found empty =>
    exact absurd (List.isEmpty_iff.mp empty) (closed.groups found).1
  | case6 picks letters symbol pattern outer alternatives found filled deep =>
    exact ⟨symbol, (Except.error.inj failed).symm⟩
  | case7 picks letters symbol pattern outer alternatives found filled low unpicked =>
    obtain ⟨a, q, picked⟩ := picks.choose?_isSome (closed.groups found).1
    rw [unpicked] at picked
    cases picked
  | case8 picks letters symbol pattern outer alternatives found filled low alternative after picked ih =>
    obtain ⟨here, rest⟩ := List.forall_mem_cons.mp declared
    refine ih (List.forall_mem_cons.mpr ⟨?_, List.forall_mem_cons.mpr ⟨?_, rest⟩⟩) failed
    · exact (closed.groups found).2 _ (Picks.mem_of_choose? picked)
    · exact fun symbol member => here symbol (List.mem_cons_of_mem _ member)

/-- A key that is declared fails to generate a word in one way only. -/
theorem createWord_error {g : Generator} {key : String} {picks : Picks} {fault : Fault}
    (closed : g.phonology.Closed) (declared : g.phonology.lexisTypes.contains key = true)
    (failed : (g.createWord key picks).1 = .error fault) : ∃ symbol, fault = .tooDeep symbol g.limit := by
  obtain ⟨shapes, found⟩ := Table.exists_get?_of_contains declared
  obtain ⟨filled, patterns⟩ := closed.lexisTypes found
  obtain ⟨shape, after, picked⟩ := picks.choose?_isSome filled
  have chosen : (g.shapes? key).bind picks.choose? = some (shape, after) := by
    rw [shapes?, found, Option.bind_some, picked]
  have one : ∀ pattern ∈ [shape], g.phonology.Declares pattern := by
    intro pattern member
    obtain rfl := List.mem_singleton.mp member
    exact patterns _ (Picks.mem_of_choose? picked)
  unfold createWord at failed
  rw [chosen] at failed
  dsimp only at failed
  split at failed
  · cases failed
  · next cause rest run =>
    rw [← Except.error.inj failed]
    exact expand_error closed one (by rw [run])

end Generator

end Etymology
