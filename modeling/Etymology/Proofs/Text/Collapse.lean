import Etymology.Proofs.Text.Runs
import Mathlib.Data.List.Chain

namespace Etymology.Text

variable {sep : Char → Bool} {c fill : Char} {cs r before behind : List Char} {rs : List (List Char)}

/-- A text where separators stand between other characters only, and one at a time. -/
structure Spaced (sep : Char → Bool) (cs : List Char) : Prop where
  starts : ∀ c ∈ cs.head?, sep c = false
  ends : ∀ c ∈ cs.getLast?, sep c = false
  single : cs.IsChain fun c d => sep c = false ∨ sep d = false

theorem Spaced.of_pure (pure : ∀ d ∈ r, sep d = false) : Spaced sep r where
  starts d first := pure d (List.mem_of_mem_head? first)
  ends d last := pure d (List.mem_of_mem_getLast? last)
  single := by
    induction r with
    | nil => exact .nil
    | cons d r ih =>
      obtain ⟨here, later⟩ := List.forall_mem_cons.mp pure
      exact List.isChain_cons.mpr ⟨fun _ _ => .inl here, ih later⟩

theorem Spaced.join (left : Spaced sep before) (given : before ≠ []) (right : Spaced sep behind)
    (more : behind ≠ []) : Spaced sep (before ++ c :: behind) where
  starts := by
    rw [List.head?_append_of_ne_nil _ given]
    exact left.starts
  ends := by
    rw [← List.concat_append, List.getLast?_append_of_ne_nil _ more]
    exact right.ends
  single := by
    refine List.isChain_append.mpr ⟨left.single, List.isChain_cons.mpr ⟨fun d first => ?_, right.single⟩, ?_⟩
    · exact .inr (right.starts d first)
    · exact fun d last _ _ => .inl (left.ends d last)

theorem intercalate_eq_nil_iff (given : ∀ r ∈ rs, r ≠ []) : [c].intercalate rs = [] ↔ rs = [] := by
  refine ⟨fun empty => ?_, fun none => none ▸ rfl⟩
  cases rs with
  | nil => rfl
  | cons r rs =>
    have first := given r List.mem_cons_self
    cases rs with
    | nil => exact absurd (List.intercalate_singleton.symm.trans empty) first
    | cons s rs =>
      rw [List.intercalate_cons_cons, List.append_assoc] at empty
      exact absurd (List.append_eq_nil_iff.mp empty).1 first

theorem mem_of_mem_intercalate {d : Char} (member : d ∈ [c].intercalate rs) : d = c ∨ ∃ r ∈ rs, d ∈ r := by
  induction rs with
  | nil => cases member
  | cons r rs ih =>
    cases rs with
    | nil =>
      rw [List.intercalate_singleton] at member
      exact .inr ⟨r, List.mem_cons_self, member⟩
    | cons s rs =>
      rw [List.intercalate_cons_cons, List.append_assoc] at member
      rcases List.mem_append.mp member with here | later
      · exact .inr ⟨r, List.mem_cons_self, here⟩
      · rcases List.mem_cons.mp later with rfl | further
        · exact .inl rfl
        · exact (ih further).imp_right fun ⟨t, among, inside⟩ => ⟨t, List.mem_cons_of_mem r among, inside⟩

theorem spaced_intercalate (proper : ∀ r ∈ rs, r ≠ [] ∧ ∀ d ∈ r, sep d = false) :
    Spaced sep ([c].intercalate rs) := by
  induction rs with
  | nil => exact .of_pure nofun
  | cons r rs ih =>
    obtain ⟨⟨given, pure⟩, later⟩ := List.forall_mem_cons.mp proper
    cases rs with
    | nil =>
      rw [List.intercalate_singleton]
      exact .of_pure pure
    | cons s rs =>
      have more : [c].intercalate (s :: rs) ≠ [] :=
        mt (intercalate_eq_nil_iff fun r member => (later r member).1).mp (List.cons_ne_nil s rs)
      rw [List.intercalate_cons_cons, List.append_assoc, List.singleton_append]
      exact (Spaced.of_pure pure).join given (ih later) more

theorem dropWhile_append_of_head? (left : ∀ d ∈ before, sep d = true) (starts : ∀ d ∈ cs.head?, sep d = false) :
    (before ++ cs).dropWhile sep = cs := by
  rw [List.dropWhile_append_of_pos left]
  cases cs with
  | nil => rfl
  | cons d cs => exact List.dropWhile_cons_of_neg (by simp [starts d rfl])

/-- Only separators are taken away, and all of those that stand at an end. -/
theorem stripped_append (left : ∀ d ∈ before, sep d = true) (right : ∀ d ∈ behind, sep d = true)
    (starts : ∀ d ∈ cs.head?, sep d = false) (ends : ∀ d ∈ cs.getLast?, sep d = false) :
    stripped sep (before ++ (cs ++ behind)) = cs := by
  rw [stripped]
  cases cs with
  | nil =>
    have all : ∀ d ∈ before ++ ([] ++ behind), sep d = true := List.forall_mem_append.mpr ⟨left, right⟩
    have dropped := @dropWhile_append_of_head? sep [] _ all nofun
    rw [List.append_nil] at dropped
    rw [dropped]
    rfl
  | cons c cs =>
    have first : ∀ d ∈ (c :: cs ++ behind).head?, sep d = false := starts
    have last : ∀ d ∈ (c :: cs).reverse.head?, sep d = false := by
      rw [List.head?_reverse]
      exact ends
    have mirrored : ∀ d ∈ behind.reverse, sep d = true := fun d member => right d (List.mem_reverse.mp member)
    rw [dropWhile_append_of_head? left first, List.reverse_append, dropWhile_append_of_head? mirrored last,
      List.reverse_reverse]

theorem stripped_of_ends (starts : ∀ d ∈ cs.head?, sep d = false) (ends : ∀ d ∈ cs.getLast?, sep d = false) :
    stripped sep cs = cs := by
  have whole := stripped_append (List.forall_mem_nil _) (List.forall_mem_nil _) starts ends
  rwa [List.append_nil] at whole

theorem intercalate_cons_head (c d : Char) (r : List Char) (rs : List (List Char)) :
    [c].intercalate ((d :: r) :: rs) = d :: [c].intercalate (r :: rs) := by
  cases rs with
  | nil => rw [List.intercalate_singleton, List.intercalate_singleton]
  | cons s rs =>
    rw [List.intercalate_cons_cons, List.intercalate_cons_cons]
    rfl

/-- Within a stretch of separators nothing is written before the next run. -/
theorem collapse_inside (sep : Char → Bool) (fill : Char) (cs : List Char) :
    ∃ trail, (∀ d ∈ trail, d = fill) ∧ collapse sep fill true cs = [fill].intercalate (runs sep cs) ++ trail := by
  fun_induction runs sep cs with
  | case1 => exact ⟨[], List.forall_mem_nil _, rfl⟩
  | case2 c cs separates ih =>
    rw [collapse, if_pos separates, if_pos rfl]
    exact ih
  | case3 c apart =>
    refine ⟨[], List.forall_mem_nil _, ?_⟩
    rw [collapse, if_neg apart]
    rfl
  | case4 c apart d cs separates ih =>
    obtain ⟨trail, filled, same⟩ := ih
    rw [collapse, if_pos separates, if_pos rfl] at same
    rw [collapse, if_neg apart, collapse, if_pos separates, if_neg Bool.false_ne_true, same]
    cases runs sep (d :: cs) with
    | nil => exact ⟨fill :: trail, List.forall_mem_cons.mpr ⟨rfl, filled⟩, rfl⟩
    | cons r rs =>
      refine ⟨trail, filled, ?_⟩
      rw [List.intercalate_cons_cons]
      rfl
  | case5 c apart d cs goesOn first rest same ih =>
    obtain ⟨trail, filled, whole⟩ := ih
    refine ⟨trail, filled, ?_⟩
    rw [collapse, if_neg goesOn] at whole
    rw [collapse, if_neg apart, collapse, if_neg goesOn, whole, same, intercalate_cons_head]
    rfl
  | case6 c apart d cs goesOn same ih =>
    obtain ⟨trail, filled, whole⟩ := ih
    refine ⟨trail, filled, ?_⟩
    rw [collapse, if_neg goesOn] at whole
    rw [collapse, if_neg apart, collapse, if_neg goesOn, whole, same]
    rfl

/-- Before the first run there is one character at most for the separators. -/
theorem collapse_outside (sep : Char → Bool) (fill : Char) (cs : List Char) :
    ∃ lead, (∀ d ∈ lead, d = fill) ∧ collapse sep fill false cs = lead ++ collapse sep fill true cs := by
  cases cs with
  | nil => exact ⟨[], List.forall_mem_nil _, rfl⟩
  | cons c cs =>
    rw [collapse, collapse]
    by_cases separates : sep c = true
    · refine ⟨[fill], List.forall_mem_singleton.mpr rfl, ?_⟩
      rw [if_pos separates, if_pos separates, if_pos rfl, if_neg Bool.false_ne_true]
      rfl
    · refine ⟨[], List.forall_mem_nil _, ?_⟩
      rw [if_neg separates, if_neg separates]
      rfl

/-- Separators that are collapsed to one of their kind and stripped off remain between two runs only. -/
theorem stripped_collapse (separates : sep fill = true) (cs : List Char) :
    stripped (· == fill) (collapse sep fill false cs) = [fill].intercalate (runs sep cs) := by
  obtain ⟨lead, filledLead, split⟩ := collapse_outside sep fill cs
  obtain ⟨trail, filledTrail, whole⟩ := collapse_inside sep fill cs
  have spaced : Spaced sep ([fill].intercalate (runs sep cs)) :=
    spaced_intercalate fun r member => ⟨ne_nil_of_mem_runs member, not_sep_of_mem_runs member⟩
  have other : ∀ d, sep d = false → (d == fill) = false := by
    intro d apart
    rw [beq_eq_false_iff_ne]
    rintro rfl
    exact Bool.false_ne_true (apart.symm.trans separates)
  have left : ∀ d ∈ lead, (d == fill) = true := fun d member => beq_iff_eq.mpr (filledLead d member)
  have right : ∀ d ∈ trail, (d == fill) = true := fun d member => beq_iff_eq.mpr (filledTrail d member)
  rw [split, whole]
  exact stripped_append left right (fun d first => other d (spaced.starts d first))
    fun d last => other d (spaced.ends d last)

/-- Where no two separators follow on each other, there is nothing to collapse. -/
theorem collapse_of_single (inside : Bool) (single : cs.IsChain fun c d => sep c = false ∨ sep d = false)
    (filled : ∀ c ∈ cs, sep c = true → c = fill) (starts : inside = true → ∀ c ∈ cs.head?, sep c = false) :
    collapse sep fill inside cs = cs := by
  induction cs generalizing inside with
  | nil => rfl
  | cons c cs ih =>
    obtain ⟨next, rest⟩ := List.isChain_cons.mp single
    obtain ⟨here, later⟩ := List.forall_mem_cons.mp filled
    rw [collapse]
    by_cases separates : sep c = true
    · have outside : ¬ inside = true := fun within => by simp [starts within c rfl] at separates
      have apart : ∀ d ∈ cs.head?, sep d = false := fun d first => (next d first).resolve_left (by simp [separates])
      rw [if_pos separates, if_neg outside, ih true rest later fun _ => apart, here separates]
    · rw [if_neg separates, ih false rest later fun within => absurd within Bool.false_ne_true]

end Etymology.Text
