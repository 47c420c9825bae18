import Etymology.Letters.Edit

namespace Etymology

/-- A sequence of letters stands in a word behind so many letters. -/
def OccursAt (old w : List String) (i : Nat) : Prop :=
  ∃ u v, w = u ++ old ++ v ∧ u.length = i

/-- The stretches of a word around the occurrences that are taken from the left. The first of them is the leftmost
one in the word, and the others are taken in the same way from what is behind it. -/
inductive Parted (old : List String) : List String → List (List String) → Prop
  | whole {w} : (∀ i, ¬ OccursAt old w i) → Parted old w [w]
  | before {g w gs} : (∀ i, OccursAt old (g ++ old ++ w) i → g.length ≤ i) → Parted old w gs →
      Parted old (g ++ old ++ w) (g :: gs)

/-- An occurrence is one of those that are taken from the left: the leftmost one, or one that is taken from what is
behind that. -/
inductive TakenAt (old : List String) : List String → Nat → Prop
  | leftmost {g w} : (∀ i, OccursAt old (g ++ old ++ w) i → g.length ≤ i) → TakenAt old (g ++ old ++ w) g.length
  | behind {g w j} : (∀ i, OccursAt old (g ++ old ++ w) i → g.length ≤ i) → TakenAt old w j →
      TakenAt old (g ++ old ++ w) (g.length + old.length + j)

section

variable {old u w : List String} {c : String} {gs hs : List (List String)} {i : Nat}

theorem occursAt_length (u old v : List String) : OccursAt old (u ++ old ++ v) u.length :=
  ⟨u, v, rfl, rfl⟩

theorem OccursAt.add_le_length (occurs : OccursAt old w i) : i + old.length ≤ w.length := by
  obtain ⟨u, v, rfl, rfl⟩ := occurs
  simp only [List.length_append]
  omega

theorem not_occursAt_nil (some : old ≠ []) : ¬ OccursAt old [] i := by
  intro occurs
  have positive := List.length_pos_iff.mpr some
  have fits := occurs.add_le_length
  simp only [List.length_nil] at fits
  omega

theorem occursAt_zero_iff : OccursAt old w 0 ↔ old <+: w := by
  constructor
  · rintro ⟨u, v, rfl, empty⟩
    obtain rfl := List.length_eq_zero_iff.mp empty
    exact ⟨v, rfl⟩
  · rintro ⟨v, rfl⟩
    exact occursAt_length [] old v

theorem occursAt_succ_iff : OccursAt old (c :: w) (i + 1) ↔ OccursAt old w i := by
  constructor
  · rintro ⟨u, v, same, length⟩
    obtain ⟨d, u, rfl⟩ := List.exists_cons_of_length_eq_add_one length
    simp only [List.cons_append, List.cons.injEq] at same
    exact ⟨u, v, same.2, Nat.succ.inj length⟩
  · rintro ⟨u, v, rfl, rfl⟩
    exact occursAt_length (c :: u) old v

theorem occursAt_append_iff : OccursAt old (u ++ w) (u.length + i) ↔ OccursAt old w i := by
  induction u with
  | nil => rw [List.nil_append, List.length_nil, Nat.zero_add]
  | cons c u ih => rw [List.cons_append, List.length_cons, Nat.add_right_comm, occursAt_succ_iff, ih]

/-- Where an occurrence begins says what is around it. -/
theorem occurrence_inj {u' v v' : List String} (same : u ++ old ++ v = u' ++ old ++ v') (length : u.length = u'.length) :
    u = u' ∧ v = v' := by
  rw [List.append_assoc, List.append_assoc] at same
  obtain ⟨rfl, behind⟩ := List.append_inj same length
  exact ⟨rfl, List.append_cancel_left behind⟩

/-- There is one leftmost occurrence. -/
theorem leftmost_inj {g g' v v' : List String} (same : g ++ old ++ v = g' ++ old ++ v')
    (leftmost : ∀ i, OccursAt old (g ++ old ++ v) i → g.length ≤ i)
    (leftmost' : ∀ i, OccursAt old (g' ++ old ++ v') i → g'.length ≤ i) : g = g' ∧ v = v' := by
  have low := leftmost g'.length (same ▸ occursAt_length g' old v')
  have high := leftmost' g.length (same ▸ occursAt_length g old v)
  exact occurrence_inj same (Nat.le_antisymm low high)

theorem TakenAt.occursAt (taken : TakenAt old w i) : OccursAt old w i := by
  induction taken with
  | leftmost _ => exact occursAt_length _ _ _
  | @behind g w j _ _ ih =>
    rw [← List.length_append]
    exact occursAt_append_iff.mpr ih

theorem takenAt_iff {g : List String} (leftmost : ∀ i, OccursAt old (g ++ old ++ w) i → g.length ≤ i) :
    TakenAt old (g ++ old ++ w) i ↔ i = g.length ∨ ∃ j, TakenAt old w j ∧ i = g.length + old.length + j := by
  constructor
  · generalize same : g ++ old ++ w = word
    intro taken
    cases taken with
    | leftmost leftmost' =>
      obtain ⟨rfl, -⟩ := leftmost_inj same leftmost leftmost'
      exact .inl rfl
    | behind leftmost' taken =>
      obtain ⟨rfl, rfl⟩ := leftmost_inj same leftmost leftmost'
      exact .inr ⟨_, taken, rfl⟩
  · rintro (rfl | ⟨j, taken, rfl⟩)
    · exact .leftmost leftmost
    · exact .behind leftmost taken

theorem Parted.ne_nil (parted : Parted old w gs) : gs ≠ [] := by
  cases parted <;> exact List.cons_ne_nil _ _

theorem Parted.ne_nil_of_occursAt {g : List String} {gs : List (List String)} (parted : Parted old w (g :: gs))
    (occurs : ∃ i, OccursAt old w i) : gs ≠ [] := by
  cases parted with
  | whole absent =>
    obtain ⟨i, here⟩ := occurs
    exact absurd here (absent i)
  | before _ rest => exact rest.ne_nil

/-- No other occurrences can be taken, so the stretches are determined. -/
theorem Parted.unique (parted : Parted old w gs) (again : Parted old w hs) : gs = hs := by
  induction parted generalizing hs with
  | whole absent =>
    cases again with
    | whole => rfl
    | before => exact absurd (occursAt_length _ _ _) (absent _)
  | @before g w gs leftmost _ ih =>
    generalize same : g ++ old ++ w = word at again
    cases again with
    | whole absent => exact absurd (same ▸ occursAt_length g old w) (absent g.length)
    | before leftmost' parted' =>
      obtain ⟨rfl, rfl⟩ := leftmost_inj same leftmost leftmost'
      rw [ih parted']

theorem gaps_skip (old : List String) (skip : Nat) (w : List String) : gaps old skip w = gaps old 0 (w.drop skip) := by
  induction w generalizing skip with
  | nil => cases skip <;> rfl
  | cons c w ih =>
    cases skip with
    | zero => rfl
    | succ skip => rw [gaps, ih, List.drop_succ_cons]

/-- Behind an occurrence at the start the search goes on with what follows it. -/
theorem gaps_append (some : old ≠ []) (w : List String) : gaps old 0 (old ++ w) = [] :: gaps old 0 w := by
  cases old with
  | nil => exact absurd rfl some
  | cons c old =>
    have here : (c :: old).isPrefixOf (c :: (old ++ w)) = true :=
      List.isPrefixOf_iff_prefix.mpr (List.prefix_append (c :: old) w)
    rw [List.cons_append, gaps, if_pos here, gaps_skip, List.length_cons, Nat.add_sub_cancel, List.drop_left]

theorem gaps_cons_of_other {g : List String} (other : ¬ old <+: c :: w) (rest : gaps old 0 w = g :: gs) :
    gaps old 0 (c :: w) = (c :: g) :: gs := by
  have none : ¬ old.isPrefixOf (c :: w) = true := fun found => other (List.isPrefixOf_iff_prefix.mp found)
  rw [gaps, if_neg none, rest]

/-- A letter that starts no occurrence goes to the first stretch. -/
theorem Parted.cons (other : ¬ old <+: c :: w) {g : List String} (parted : Parted old w (g :: gs)) :
    Parted old (c :: w) ((c :: g) :: gs) := by
  have later {i : Nat} (occurs : OccursAt old (c :: w) i) : ∃ j, i = j + 1 ∧ OccursAt old w j := by
    cases i with
    | zero => exact absurd (occursAt_zero_iff.mp occurs) other
    | succ j => exact ⟨j, rfl, occursAt_succ_iff.mp occurs⟩
  cases parted with
  | whole absent =>
    refine .whole fun i occurs => ?_
    obtain ⟨j, -, before⟩ := later occurs
    exact absent j before
  | before leftmost parted =>
    refine .before (g := c :: g) (fun i occurs => ?_) parted
    obtain ⟨j, rfl, before⟩ := later occurs
    exact Nat.succ_le_succ (leftmost j before)

/-- The search finds the occurrences that are taken from the left. -/
theorem parted_gaps (some : old ≠ []) (w : List String) : Parted old w (gaps old 0 w) := by
  -- On the length, since the search goes on behind an occurrence, not at the next letter.
  induction size : w.length using Nat.strongRecOn generalizing w with
  | _ n ih =>
    subst size
    by_cases here : old <+: w
    · obtain ⟨v, rfl⟩ := here
      have positive := List.length_pos_iff.mpr some
      have rest := ih v.length (by rw [List.length_append]; omega) v rfl
      rw [gaps_append some]
      exact .before (g := []) (fun i _ => Nat.zero_le i) rest
    · cases w with
      | nil => exact .whole fun i => not_occursAt_nil some
      | cons c w =>
        have rest := ih w.length (Nat.lt_succ_self _) w rfl
        obtain ⟨g, gs, found⟩ := List.exists_cons_of_ne_nil rest.ne_nil
        rw [gaps_cons_of_other here found]
        rw [found] at rest
        exact rest.cons here

theorem exists_parted (some : old ≠ []) (w : List String) : ∃ g gs, Parted old w (g :: gs) := by
  have parted := parted_gaps some w
  obtain ⟨g, gs, found⟩ := List.exists_cons_of_ne_nil parted.ne_nil
  exact ⟨g, gs, found ▸ parted⟩

end

end Etymology
