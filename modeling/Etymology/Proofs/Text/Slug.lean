import Etymology.Proofs.Text.Collapse
import Etymology.Text.Runs
import Mathlib.Data.String.Basic

namespace Etymology.Text

variable {s : String} {c : Char} {cs : List Char}

/-- The lowercase form of what stands behind `before` in a text. A capital sigma at the end of a word has a form of
its own; `final` tells one by what stands before and behind it. -/
def lowercase (final : List Char → List Char → Bool) (before : List Char) : List Char → List Char
  | [] => []
  | c :: cs => (if c == 'Σ' && final before cs then ['ς'] else lower c) ++ lowercase final (before ++ [c]) cs

/-- The runs of slug characters of the lowercase text. -/
def slugRuns (s : String) : List (List Char) :=
  runs isSlugGap (s.toList.flatMap lower)

/-- One or more texts of slug characters, none of them empty, joined by single hyphens. -/
def IsSlug (s : String) : Prop :=
  ∃ parts : List String, parts ≠ [] ∧ (∀ part ∈ parts, part ≠ "" ∧ ∀ c ∈ part.toList, isSlugChar c = true) ∧
    s = "-".intercalate parts

/-- A text of slug characters and hyphens that is not empty, has no hyphen at an end and no two in a row. -/
structure IsTidy (s : String) : Prop where
  nonempty : s ≠ ""
  chars : ∀ c ∈ s.toList, isSlugChar c = true ∨ c = '-'
  starts : s.toList.head? ≠ some '-'
  ends : s.toList.getLast? ≠ some '-'
  single : ¬ ['-', '-'] <:+: s.toList

theorem isSlugGap_eq_false_iff : isSlugGap c = false ↔ isSlugChar c = true := by
  rw [isSlugGap, Bool.not_eq_false']

theorem isSlugGap_hyphen : isSlugGap '-' = true := by decide

/-- No slug shows whether a sigma is at the end of a word. -/
theorem runs_lowercase (final : List Char → List Char → Bool) (before cs : List Char) :
    runs isSlugGap (lowercase final before cs) = runs isSlugGap (cs.flatMap lower) := by
  apply runs_congr
  induction cs generalizing before with
  | nil => exact .nil
  | cons c cs ih =>
    rw [lowercase, List.flatMap_cons]
    refine List.rel_append ?_ (ih (before ++ [c]))
    split
    · next sigma =>
      obtain ⟨same, -⟩ := Bool.and_eq_true_iff.mp sigma
      obtain rfl := beq_iff_eq.mp same
      have elsewhere : lower 'Σ' = ['σ'] := by decide
      rw [elsewhere]
      exact .cons (.inr (by decide)) .nil
    · exact List.forall₂_same.mpr fun _ _ => .inl rfl

/-- Digits, small letters and hyphens are their own lowercase forms. -/
theorem lower_of_slugChar (small : isSlugChar c = true ∨ c = '-') : lower c = [c] := by
  have placed : c ≤ 'z' ∧ ¬ ('A' ≤ c ∧ c ≤ 'Z') := by
    simp only [isSlugChar, Bool.or_eq_true, Bool.and_eq_true, decide_eq_true_eq] at small
    rcases small with (⟨-, upper⟩ | ⟨lower, upper⟩) | rfl
    · exact ⟨le_trans upper (by decide), fun capital => absurd (le_trans capital.1 upper) (by decide)⟩
    · exact ⟨upper, fun capital => absurd (le_trans lower capital.2) (by decide)⟩
    · decide
  have ascii : c.toNat < 0x80 := Nat.lt_of_le_of_lt (UInt32.le_iff_toNat_le.mp placed.1) (by decide)
  have kept : c.toLower = c := dif_neg placed.2
  rw [lower, if_pos ascii, kept]

theorem flatMap_lower_of_slugChars (small : ∀ c ∈ cs, isSlugChar c = true ∨ c = '-') : cs.flatMap lower = cs := by
  induction cs with
  | nil => rfl
  | cons c cs ih =>
    obtain ⟨here, later⟩ := List.forall_mem_cons.mp small
    rw [List.flatMap_cons, lower_of_slugChar here, ih later, List.singleton_append]

/-- Stripping what was collapsed leaves the runs, with a hyphen between two. -/
theorem slug_eq_joined (s : String) :
    slug s = if slugRuns s = [] then "lang" else "-".intercalate ((slugRuns s).map String.ofList) := by
  have given : ∀ r ∈ slugRuns s, r ≠ [] := fun r => ne_nil_of_mem_runs
  have joined : String.ofList (['-'].intercalate (slugRuns s)) = "-".intercalate ((slugRuns s).map String.ofList) := by
    rw [← String.toList_inj, String.toList_ofList, String.toList_intercalate, List.map_map]
    simp
  rw [slug, stripped_collapse isSlugGap_hyphen, ← slugRuns]
  split
  · next empty => rw [if_pos ((intercalate_eq_nil_iff given).mp empty)]
  · next more => rw [if_neg (mt (intercalate_eq_nil_iff given).mpr more), joined]

theorem isSlug_slug (s : String) : IsSlug (slug s) := by
  rw [slug_eq_joined]
  split
  · have small : ∀ c ∈ "lang".toList, isSlugChar c = true := List.all_eq_true.mp (by decide)
    exact ⟨["lang"], List.cons_ne_nil _ _, List.forall_mem_singleton.mpr ⟨by decide, small⟩, rfl⟩
  · next given =>
    refine ⟨(slugRuns s).map String.ofList, mt List.map_eq_nil_iff.mp given, fun part member => ?_, rfl⟩
    obtain ⟨r, among, rfl⟩ := List.mem_map.mp member
    refine ⟨mt String.ofList_eq_empty_iff.mp (ne_nil_of_mem_runs among), fun c inside => ?_⟩
    rw [String.toList_ofList] at inside
    exact isSlugGap_eq_false_iff.mp (not_sep_of_mem_runs among c inside)

theorem IsSlug.isTidy (joined : IsSlug s) : IsTidy s := by
  obtain ⟨parts, nonempty, proper, rfl⟩ := joined
  have chars : ("-".intercalate parts).toList = ['-'].intercalate (parts.map String.toList) := String.toList_intercalate
  have pure : ∀ r ∈ parts.map String.toList, r ≠ [] ∧ ∀ c ∈ r, isSlugGap c = false := by
    intro r member
    obtain ⟨part, among, rfl⟩ := List.mem_map.mp member
    obtain ⟨given, small⟩ := proper part among
    exact ⟨mt String.toList_eq_nil_iff.mp given, fun c inside => isSlugGap_eq_false_iff.mpr (small c inside)⟩
  have spaced : Spaced isSlugGap ("-".intercalate parts).toList := chars ▸ spaced_intercalate pure
  refine {
    nonempty := fun empty => ?_
    chars := fun c member => ?_
    starts := fun first => absurd (spaced.starts '-' first) (by decide)
    ends := fun last => absurd (spaced.ends '-' last) (by decide)
    single := ?_ }
  · have none : parts.map String.toList = [] := by
      rw [empty] at chars
      exact (intercalate_eq_nil_iff fun r member => (pure r member).1).mp chars.symm
    exact nonempty (List.map_eq_nil_iff.mp none)
  · rw [chars] at member
    rcases mem_of_mem_intercalate member with rfl | ⟨r, among, inside⟩
    · exact .inr rfl
    · exact .inl (isSlugGap_eq_false_iff.mp ((pure r among).2 c inside))
  · rintro ⟨before, behind, split⟩
    have doubled : ("-".intercalate parts).toList = before ++ '-' :: '-' :: behind := by simp [← split]
    have apart := List.isChain_iff_forall_rel_of_append_cons_cons.mp spaced.single doubled
    exact absurd apart (by decide)

theorem IsTidy.eq_hyphen (tidy : IsTidy s) (member : c ∈ s.toList) (gap : isSlugGap c = true) : c = '-' := by
  refine (tidy.chars c member).resolve_left fun small => ?_
  rw [isSlugGap_eq_false_iff.mpr small] at gap
  cases gap

theorem IsTidy.isChain (tidy : IsTidy s) :
    s.toList.IsChain fun c d => isSlugGap c = false ∨ isSlugGap d = false := by
  rw [List.isChain_iff_forall_rel_of_append_cons_cons]
  intro c d before behind split
  by_contra both
  rw [not_or, Bool.not_eq_false, Bool.not_eq_false] at both
  obtain rfl := tidy.eq_hyphen (by simp [split]) both.1
  obtain rfl := tidy.eq_hyphen (by simp [split]) both.2
  exact tidy.single ⟨before, behind, by simp [split]⟩

/-- There is nothing to change about a tidy text. -/
theorem IsTidy.slug_eq (tidy : IsTidy s) : slug s = s := by
  have collapsed : collapse isSlugGap '-' false s.toList = s.toList :=
    collapse_of_single false tidy.isChain (fun c => tidy.eq_hyphen) nofun
  have kept : stripped (· == '-') s.toList = s.toList := by
    refine stripped_of_ends (fun c first => ?_) (fun c last => ?_)
    · exact beq_eq_false_iff_ne.mpr fun hyphen => tidy.starts (hyphen ▸ first)
    · exact beq_eq_false_iff_ne.mpr fun hyphen => tidy.ends (hyphen ▸ last)
  rw [slug, flatMap_lower_of_slugChars tidy.chars, collapsed, kept]
  split
  · next empty => exact absurd (String.toList_eq_nil_iff.mp empty) tidy.nonempty
  · exact String.ofList_toList

/-- The slugs are the texts that are their own slugs. -/
theorem slug_eq_self_iff : slug s = s ↔ IsSlug s :=
  ⟨fun same => same ▸ isSlug_slug s, fun joined => joined.isTidy.slug_eq⟩

instance : DecidablePred IsSlug :=
  fun _ => decidable_of_iff _ slug_eq_self_iff

example : IsSlug "old-french" ∧ ¬ IsSlug "old--french" ∧ ¬ IsSlug "-old" := by decide

/-- The slug of a text is the maximal runs of digits and small letters in its lowercase form, whichever sigmas end a
word, joined by single hyphens, and `lang` where there are none. It is not empty, has no hyphen at an end and no two in
a row, and is its own slug. -/
theorem slug_canonical (final : List Char → List Char → Bool) (s : String) :
    (∀ rs, MaximalRuns isSlugGap (lowercase final [] s.toList) rs ↔ rs = slugRuns s) ∧
      slug s = (if slugRuns s = [] then "lang" else "-".intercalate ((slugRuns s).map String.ofList)) ∧
      IsSlug (slug s) ∧ IsTidy (slug s) ∧ slug (slug s) = slug s := by
  have joined := isSlug_slug s
  refine ⟨fun rs => ?_, slug_eq_joined s, joined, joined.isTidy, slug_eq_self_iff.mpr joined⟩
  rw [maximalRuns_iff, runs_lowercase, slugRuns]

/-- The lowercase forms of the dotted capital I and of the Kelvin sign have a small letter of ASCII in them. -/
example : slug "\u0130zmir, 300 \u212A!" = "i-zmir-300-k" := by decide

end Etymology.Text
