import Etymology.Text.Runs
import Mathlib.Data.List.Basic
import Mathlib.Data.List.Forall2

namespace Etymology.Text

variable {sep : Char → Bool} {c : Char} {cs ds r : List Char} {rs : List (List Char)}

/-- Stretches of a text that were made texts of their own come to the text again. -/
theorem join_map_ofList (rs : List (List Char)) :
    String.join (rs.map String.ofList) = String.ofList rs.flatten := by
  rw [← String.toList_inj, String.toList_join, String.toList_ofList, List.flatMap_map]
  simp only [String.toList_ofList, List.flatMap_id']

theorem ne_nil_of_mem_runs (member : r ∈ runs sep cs) : r ≠ [] := by
  fun_induction runs sep cs with
  | case1 => cases member
  | case2 c cs separates ih => exact ih member
  | case3 c =>
    obtain rfl := List.mem_singleton.mp member
    exact List.cons_ne_nil c []
  | case4 c other d cs separates ih =>
    rcases List.mem_cons.mp member with rfl | later
    · exact List.cons_ne_nil c []
    · exact ih later
  | case5 c other d cs goesOn first rest same ih =>
    rw [same] at member
    rcases List.mem_cons.mp member with rfl | later
    · exact List.cons_ne_nil c first
    · exact ih (same ▸ List.mem_cons_of_mem first later)
  | case6 c other d cs goesOn same =>
    rw [same] at member
    obtain rfl := List.mem_singleton.mp member
    exact List.cons_ne_nil c []

theorem runs_cons_of_sep (separates : sep c = true) : runs sep (c :: cs) = runs sep cs := by
  cases cs <;> simp only [runs, separates, if_true]

/-- A stretch without separators is a run where a separator or the end comes behind it. -/
theorem runs_append (given : r ≠ []) (pure : ∀ d ∈ r, sep d = false) (ends : ∀ d ∈ cs.head?, sep d = true) :
    runs sep (r ++ cs) = r :: runs sep cs := by
  induction r with
  | nil => exact absurd rfl given
  | cons d r ih =>
    obtain ⟨here, later⟩ := List.forall_mem_cons.mp pure
    have inside : ¬ sep d = true := by simp [here]
    cases r with
    | nil =>
      cases cs with
      | nil => simp [runs, here]
      | cons c cs =>
        have separates : sep c = true := ends c rfl
        rw [List.singleton_append, runs, if_neg inside, if_pos separates]
    | cons e r =>
      have rest : runs sep (e :: (r ++ cs)) = (e :: r) :: runs sep cs := ih (List.cons_ne_nil e r) later
      have goesOn : ¬ sep e = true := by simp [later e List.mem_cons_self]
      rw [List.cons_append, List.cons_append, runs, if_neg inside, if_neg goesOn, rest]

theorem flatten_runs (sep : Char → Bool) (cs : List Char) : (runs sep cs).flatten = cs.filter fun c => !sep c := by
  fun_induction runs sep cs with
  | case1 => rfl
  | case2 c cs separates ih => simpa [separates] using ih
  | case3 c apart => simp [apart]
  | case4 c apart d cs separates ih => simpa [apart] using ih
  | case5 c apart d cs goesOn first rest same ih =>
    rw [same] at ih ⊢
    rw [List.filter_cons_of_pos (by simpa using apart), ← ih]
    rfl
  | case6 c apart d cs goesOn same ih =>
    rw [same] at ih ⊢
    rw [List.filter_cons_of_pos (by simpa using apart), ← ih]
    rfl

theorem not_sep_of_mem_runs (member : r ∈ runs sep cs) (c : Char) (inside : c ∈ r) : sep c = false := by
  have among : c ∈ (runs sep cs).flatten := List.mem_flatten.mpr ⟨r, member, inside⟩
  rw [flatten_runs, List.mem_filter] at among
  simpa using among.2

/-- Runs that are joined by single separators are found again, whatever a separator behind them leads on to. -/
theorem runs_intercalate_append (separates : sep c = true) (proper : ∀ r ∈ rs, r ≠ [] ∧ ∀ d ∈ r, sep d = false)
    (ends : ∀ d ∈ cs.head?, sep d = true) : runs sep ([c].intercalate rs ++ cs) = rs ++ runs sep cs := by
  induction rs with
  | nil => rfl
  | cons r rs ih =>
    obtain ⟨⟨given, pure⟩, later⟩ := List.forall_mem_cons.mp proper
    cases rs with
    | nil => rw [List.intercalate_singleton, runs_append given pure ends, List.singleton_append]
    | cons s rs =>
      have rest := ih later
      have split : [c].intercalate (r :: s :: rs) ++ cs = r ++ c :: ([c].intercalate (s :: rs) ++ cs) := by
        rw [List.intercalate_cons_cons, List.append_assoc, List.append_assoc, List.singleton_append]
      have apart : ∀ d ∈ (c :: ([c].intercalate (s :: rs) ++ cs)).head?, sep d = true := by simpa using separates
      rw [split, runs_append given pure apart, runs_cons_of_sep separates, rest]
      rfl

/-- The runs of a text, in order: each reaches from a separator or an end of the text to the next. -/
inductive MaximalRuns (sep : Char → Bool) : List Char → List (List Char) → Prop
  | nil : MaximalRuns sep [] []
  | gap {c : Char} {cs : List Char} {rs : List (List Char)} (separates : sep c = true) :
      MaximalRuns sep cs rs → MaximalRuns sep (c :: cs) rs
  | run {r cs : List Char} {rs : List (List Char)} (given : r ≠ []) (pure : ∀ d ∈ r, sep d = false)
      (ends : ∀ d ∈ cs.head?, sep d = true) : MaximalRuns sep cs rs → MaximalRuns sep (r ++ cs) (r :: rs)

theorem MaximalRuns.eq_runs (cut : MaximalRuns sep cs rs) : rs = runs sep cs := by
  induction cut with
  | nil => rfl
  | gap separates _ ih => rw [runs_cons_of_sep separates, ih]
  | run given pure ends _ ih => rw [runs_append given pure ends, ih]

/-- A run that comes next after a character that is no separator begins with that character. -/
theorem MaximalRuns.longer {d : Char} (apart : sep c = false) (goesOn : sep d = false)
    (cut : MaximalRuns sep (d :: cs) (r :: rs)) : MaximalRuns sep (c :: d :: cs) ((c :: r) :: rs) := by
  generalize same : d :: cs = text at cut
  cases cut with
  | gap separates _ =>
    obtain ⟨rfl, -⟩ := List.cons.inj same
    rw [goesOn] at separates
    cases separates
  | run given pure ends rest =>
    exact .run (List.cons_ne_nil c r) (List.forall_mem_cons.mpr ⟨apart, pure⟩) ends rest

theorem maximalRuns_runs (sep : Char → Bool) (cs : List Char) : MaximalRuns sep cs (runs sep cs) := by
  fun_induction runs sep cs with
  | case1 => exact .nil
  | case2 c cs separates ih => exact .gap separates ih
  | case3 c apart => exact .run (List.cons_ne_nil c []) (by simpa using apart) nofun .nil
  | case4 c apart d cs separates ih =>
    exact .run (List.cons_ne_nil c []) (by simpa using apart) (by simpa using separates) ih
  | case5 c apart d cs goesOn first rest same ih =>
    rw [same] at ih ⊢
    exact ih.longer (by simpa using apart) (by simpa using goesOn)
  | case6 c apart d cs goesOn same ih =>
    rw [same] at ih
    generalize whole : d :: cs = text at ih
    cases ih with
    | nil => cases whole
    | gap separates _ =>
      obtain ⟨rfl, -⟩ := List.cons.inj whole
      exact absurd separates goesOn

theorem maximalRuns_iff : MaximalRuns sep cs rs ↔ rs = runs sep cs :=
  ⟨MaximalRuns.eq_runs, fun same => same ▸ maximalRuns_runs sep cs⟩

/-- What the separators are makes no difference to the runs. -/
theorem runs_congr (alike : List.Forall₂ (fun c d => c = d ∨ sep c = true ∧ sep d = true) cs ds) :
    runs sep cs = runs sep ds := by
  induction alike with
  | nil => rfl
  | @cons c d cs ds here later ih =>
    rcases here with rfl | ⟨left, right⟩
    · by_cases separates : sep c = true
      · rw [runs_cons_of_sep separates, runs_cons_of_sep separates, ih]
      · cases later with
        | nil => rfl
        | @cons e f es fs next _ =>
          have same : sep e = sep f := by
            rcases next with rfl | ⟨left, right⟩
            · rfl
            · rw [left, right]
          rw [runs, runs, if_neg separates, if_neg separates, ih, same]
    · rw [runs_cons_of_sep left, runs_cons_of_sep right, ih]

end Etymology.Text
