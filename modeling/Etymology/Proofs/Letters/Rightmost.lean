import Etymology.Proofs.Letters.Replacement
import Mathlib.Data.Fintype.EquivFin

namespace Etymology

/-- A sequence ends as it begins, so that an occurrence may begin within another. -/
def Overlaps (old : List String) : Prop :=
  ∃ border, border ≠ [] ∧ border.length < old.length ∧ border <+: old ∧ border <:+ old

section

variable {old w u v : List String}

/-- Of the occurrences that are taken from the left this is the last one. -/
def IsLastTaken (old w : List String) (i : Nat) : Prop :=
  TakenAt old w i ∧ ∀ j, TakenAt old w j → j ≤ i

theorem isLastTaken_of_absent (leftmost : ∀ i, OccursAt old (u ++ old ++ v) i → u.length ≤ i)
    (absent : ∀ i, ¬ OccursAt old v i) : IsLastTaken old (u ++ old ++ v) u.length := by
  refine ⟨.leftmost leftmost, fun j taken => ?_⟩
  rcases (takenAt_iff leftmost).mp taken with rfl | ⟨k, behind, -⟩
  · exact Nat.le_refl _
  · exact absurd behind.occursAt (absent k)

theorem IsLastTaken.behind {i : Nat} (last : IsLastTaken old v i)
    (leftmost : ∀ i, OccursAt old (u ++ old ++ v) i → u.length ≤ i) :
    IsLastTaken old (u ++ old ++ v) (u.length + old.length + i) := by
  refine ⟨.behind leftmost last.1, fun j taken => ?_⟩
  rcases (takenAt_iff leftmost).mp taken with rfl | ⟨k, behind, rfl⟩
  · omega
  · exact Nat.add_le_add_left (last.2 k behind) _

/-- Nothing stands behind the last occurrence that is taken, and this is the one that is exchanged. -/
theorem Parted.last {g h : List String} {gs : List (List String)} (parted : Parted old w (g :: h :: gs)) :
    ∃ u v, w = u ++ old ++ v ∧ IsLastTaken old w u.length ∧ (∀ i, ¬ OccursAt old v i) ∧
      ∀ new, joinLast old new (g :: h :: gs) = u ++ new ++ v := by
  induction gs generalizing w g h with
  | nil =>
    cases parted with
    | before leftmost rest =>
      cases rest with
      | whole absent => exact ⟨g, h, rfl, isLastTaken_of_absent leftmost absent, absent, fun new => rfl⟩
      | before _ rest => exact absurd rfl rest.ne_nil
  | cons k gs ih =>
    cases parted with
    | before leftmost rest =>
      obtain ⟨u, v, rfl, last, absent, joined⟩ := ih rest
      refine ⟨g ++ old ++ u, v, by simp only [List.append_assoc], ?_, absent, fun new => ?_⟩
      · rw [List.length_append, List.length_append]
        exact last.behind leftmost
      · have step : joinLast old new (g :: h :: k :: gs) = g ++ old ++ joinLast old new (h :: k :: gs) := rfl
        rw [step, joined]
        simp only [List.append_assoc]

theorem OccursAt.lt_of_absent {i : Nat} (occurs : OccursAt old (u ++ old ++ v) i) (absent : ∀ i, ¬ OccursAt old v i) :
    i < u.length + old.length := by
  by_contra behind
  obtain ⟨j, rfl⟩ := Nat.exists_eq_add_of_le (Nat.not_lt.mp behind)
  rw [← List.length_append] at occurs
  exact absent j (occursAt_append_iff.mp occurs)

theorem exists_leftmost (some : old ≠ []) (occurs : ∃ i, OccursAt old w i) :
    ∃ u v, w = u ++ old ++ v ∧ ∀ i, OccursAt old w i → u.length ≤ i := by
  obtain ⟨g, gs, parted⟩ := exists_parted some w
  cases parted with
  | whole absent =>
    obtain ⟨i, here⟩ := occurs
    exact absurd here (absent i)
  | @before _ v _ leftmost _ => exact ⟨g, v, rfl, leftmost⟩

theorem OccursAt.reverse {i : Nat} (occurs : OccursAt old w i) :
    ∃ j, OccursAt old.reverse w.reverse j ∧ i + old.length + j = w.length := by
  obtain ⟨u, v, rfl, rfl⟩ := occurs
  refine ⟨v.reverse.length, ⟨v.reverse, u.reverse, ?_, rfl⟩, ?_⟩
  · simp only [List.reverse_append, List.append_assoc]
  · simp only [List.length_append, List.length_reverse]

/-- Read from the right, the leftmost occurrence is the rightmost one. -/
theorem rightmost_of_reverse (mirrored : w.reverse = v.reverse ++ old.reverse ++ u.reverse)
    (leftmost : ∀ i, OccursAt old.reverse w.reverse i → v.reverse.length ≤ i) :
    w = u ++ old ++ v ∧ ∀ i, OccursAt old w i → i ≤ u.length := by
  have here : w = u ++ old ++ v := by
    have back := congrArg List.reverse mirrored
    simpa only [List.reverse_append, List.reverse_reverse, List.append_assoc] using back
  refine ⟨here, fun i occurs => ?_⟩
  obtain ⟨j, there, whole⟩ := occurs.reverse
  have low := leftmost j there
  rw [here] at whole
  simp only [List.length_append, List.length_reverse] at whole low
  omega

/-- An occurrence that begins within another begins with the end of that one. -/
theorem overlaps_of_occursAt {i : Nat} (occurs : OccursAt old (u ++ old ++ v) i) (later : u.length < i)
    (within : i < u.length + old.length) : Overlaps old := by
  obtain ⟨u', v', same, rfl⟩ := occurs
  rw [List.append_assoc, List.append_assoc] at same
  -- What stands between the two beginnings is the part of the first occurrence that is not shared.
  obtain ⟨start, rfl⟩ : u <+: u' := List.prefix_of_prefix_length_le ⟨_, same⟩ ⟨_, rfl⟩ later.le
  rw [List.length_append] at later within
  rw [List.append_assoc] at same
  have behind := List.append_cancel_left same
  obtain ⟨border, rfl⟩ : start <+: old := List.prefix_of_prefix_length_le ⟨_, behind.symm⟩ ⟨_, rfl⟩ (by omega)
  rw [List.append_assoc] at behind
  have shared := List.append_cancel_left behind
  simp only [List.length_append] at later within
  refine ⟨border, List.ne_nil_of_length_pos (by omega), ?_, ?_, List.suffix_append start border⟩
  · rw [List.length_append]
    omega
  · exact List.prefix_of_prefix_length_le ⟨_, shared⟩ ⟨_, rfl⟩ (by simp)

end

namespace Word

/-- The word with its letters in the opposite order. -/
def mirrored (w : Word) : Word :=
  ⟨w.letters.reverse⟩

/-- An edit at the last place exchanges the rightmost of all occurrences. -/
def EndsRightmost (w old : Word) : Prop :=
  ∃ u v, w.letters = u ++ old.letters ++ v ∧ (∀ i, OccursAt old.letters w.letters i → i ≤ u.length) ∧
    ∀ new, (w.replace old new .last).letters = u ++ new.letters ++ v

section

variable {w old : Word}

theorem letters_replace_last (some : old.isEmpty = false) (occurs : ∃ i, OccursAt old.letters w.letters i) :
    ∃ u v, w.letters = u ++ old.letters ++ v ∧ IsLastTaken old.letters w.letters u.length ∧
      (∀ i, ¬ OccursAt old.letters v i) ∧ ∀ new, (w.replace old new .last).letters = u ++ new.letters ++ v := by
  obtain ⟨g, gs, parted⟩ := exists_parted (letters_ne_nil some) w.letters
  obtain ⟨h, gs, rfl⟩ := List.exists_cons_of_ne_nil (parted.ne_nil_of_occursAt occurs)
  obtain ⟨u, v, here, last, absent, joined⟩ := parted.last
  refine ⟨u, v, here, last, absent, fun new => ?_⟩
  rw [← joined, joinLast_eq_filled]
  exact letters_replace some parted new .last

/-- Seen in the mirror, an edit at the first place exchanges the rightmost of all occurrences. -/
theorem letters_mirrored_first (some : old.isEmpty = false) (occurs : ∃ i, OccursAt old.letters w.letters i) :
    ∃ u v, w.letters = u ++ old.letters ++ v ∧ (∀ i, OccursAt old.letters w.letters i → i ≤ u.length) ∧
      ∀ new : Word, (w.mirrored.replace old.mirrored new.mirrored .first).mirrored.letters = u ++ new.letters ++ v := by
  have some' : old.mirrored.isEmpty = false := by simpa [mirrored, isEmpty] using some
  obtain ⟨i, here⟩ := occurs
  obtain ⟨j, there, -⟩ := here.reverse
  obtain ⟨v, u, split, leftmost⟩ := exists_leftmost (letters_ne_nil some') ⟨j, there⟩
  rw [← v.reverse_reverse, ← u.reverse_reverse] at split
  rw [← v.reverse_reverse] at leftmost
  obtain ⟨whole, rightmost⟩ := rightmost_of_reverse split leftmost
  refine ⟨u.reverse, v.reverse, whole, rightmost, fun new => ?_⟩
  have first := letters_replace_first (w := w.mirrored) some' split leftmost new.mirrored
  have back := congrArg List.reverse first
  simpa only [mirrored, List.reverse_append, List.reverse_reverse, List.append_assoc] using back

theorem endsRightmost_iff_mirrored (some : old.isEmpty = false) (occurs : ∃ i, OccursAt old.letters w.letters i) :
    w.EndsRightmost old ↔
      ∀ new, w.replace old new .last = (w.mirrored.replace old.mirrored new.mirrored .first).mirrored := by
  obtain ⟨u, v, here, rightmost, first⟩ := letters_mirrored_first some occurs
  constructor
  · rintro ⟨u', v', there, rightmost', last⟩ new
    have low := rightmost u'.length (there ▸ occursAt_length u' old.letters v')
    have high := rightmost' u.length (here ▸ occursAt_length u old.letters v)
    obtain ⟨rfl, rfl⟩ := occurrence_inj (here.symm.trans there) (Nat.le_antisymm high low)
    exact congrArg Word.mk ((last new).trans (first new).symm)
  · intro alike
    exact ⟨u, v, here, rightmost, fun new => (congrArg letters (alike new)).trans (first new)⟩

/-- Where no two occurrences overlap there is none behind the one that is exchanged. -/
theorem endsRightmost_of_apart (some : old.isEmpty = false) (occurs : ∃ i, OccursAt old.letters w.letters i)
    (apart : ∀ i j, OccursAt old.letters w.letters i → OccursAt old.letters w.letters j → i < j → i + old.length ≤ j) :
    w.EndsRightmost old := by
  obtain ⟨u, v, here, -, absent, last⟩ := letters_replace_last some occurs
  refine ⟨u, v, here, fun i occursHere => ?_, last⟩
  by_contra later
  have behind := apart u.length i (here ▸ occursAt_length u old.letters v) occursHere (Nat.not_le.mp later)
  rw [here] at occursHere
  exact Nat.not_lt.mpr behind (occursHere.lt_of_absent absent)

theorem endsRightmost_of_not_overlaps (some : old.isEmpty = false) (occurs : ∃ i, OccursAt old.letters w.letters i)
    (single : ¬ Overlaps old.letters) : w.EndsRightmost old := by
  refine endsRightmost_of_apart some occurs fun i j first second later => ?_
  by_contra within
  obtain ⟨u, v, here, rfl⟩ := first
  rw [here] at second
  exact single (overlaps_of_occursAt second later (Nat.not_le.mp within))

/-- Behind the part that it has in common with its end, a sequence stands once more in the word that goes on so. -/
theorem exists_not_endsRightmost (overlaps : Overlaps old.letters) :
    ∃ w : Word, (∃ i, OccursAt old.letters w.letters i) ∧ ¬ w.EndsRightmost old := by
  obtain ⟨border, some, short, ⟨rest, ahead⟩, ⟨start, behind⟩⟩ := overlaps
  have nonempty : old.isEmpty = false := by
    cases empty : old.letters with
    | nil => simp [empty] at short
    | cons c cs => simp [isEmpty, empty]
  have twice : start ++ old.letters = old.letters ++ rest := by rw [← ahead, ← List.append_assoc, behind, ahead]
  have startLength := congrArg List.length behind
  have restLength := congrArg List.length ahead
  simp only [List.length_append] at startLength restLength
  have positive := List.length_pos_iff.mpr some
  have absent (i : Nat) : ¬ OccursAt old.letters rest i := by
    intro occurs
    have fits := occurs.add_le_length
    omega
  have parted : Parted old.letters (old.letters ++ rest) [[], rest] :=
    .before (g := []) (fun i _ => Nat.zero_le i) (.whole absent)
  refine ⟨⟨old.letters ++ rest⟩, ⟨0, occursAt_length [] old.letters rest⟩, ?_⟩
  rintro ⟨u, v, here, rightmost, last⟩
  -- A letter that the word does not have shows where the exchange took place.
  obtain ⟨fresh, new⟩ := Infinite.exists_notMem_finset (old.letters ++ rest).toFinset
  rw [List.mem_toFinset] at new
  have low := rightmost start.length ⟨start, [], by simp only [List.append_nil, twice], rfl⟩
  have taken := letters_replace nonempty parted ⟨[fresh]⟩ .last
  rw [last] at taken
  cases u with
  | nil =>
    simp only [List.length_nil] at low
    omega
  | cons c u =>
    have first : c = fresh := by
      have heads := congrArg List.head? taken
      simpa [filled, Place.ActsOn] using heads
    apply new
    rw [show old.letters ++ rest = c :: u ++ old.letters ++ v from here, ← first]
    simp

end

/-- An edit at the last place exchanges the last of the occurrences that are taken from the left, and none is wholly
behind it. Where no two occurrences overlap it is the rightmost of all, which is to say that the edit is the mirror
image of one at the first place. It is so in every word unless the sequence ends as it begins. -/
theorem replace_last_exchanges (old : Word) (some : old.isEmpty = false) :
    (∀ w : Word, (∃ i, OccursAt old.letters w.letters i) →
      (∃ u v, w.letters = u ++ old.letters ++ v ∧ IsLastTaken old.letters w.letters u.length ∧
        (∀ i, OccursAt old.letters w.letters i → i < u.length + old.length) ∧
        ∀ new, (w.replace old new .last).letters = u ++ new.letters ++ v) ∧
      ((∀ i j, OccursAt old.letters w.letters i → OccursAt old.letters w.letters j → i < j → i + old.length ≤ j) →
        w.EndsRightmost old) ∧
      (w.EndsRightmost old ↔
        ∀ new, w.replace old new .last = (w.mirrored.replace old.mirrored new.mirrored .first).mirrored)) ∧
      ((∀ w : Word, (∃ i, OccursAt old.letters w.letters i) → w.EndsRightmost old) ↔ ¬ Overlaps old.letters) := by
  refine ⟨fun w occurs => ⟨?_, endsRightmost_of_apart some occurs, endsRightmost_iff_mirrored some occurs⟩, ?_, ?_⟩
  · obtain ⟨u, v, here, taken, absent, last⟩ := letters_replace_last some occurs
    refine ⟨u, v, here, taken, fun i occursHere => ?_, last⟩
    rw [here] at occursHere
    exact occursHere.lt_of_absent absent
  · intro always overlaps
    obtain ⟨w, occurs, other⟩ := exists_not_endsRightmost overlaps
    exact other (always w occurs)
  · exact fun single w occurs => endsRightmost_of_not_overlaps some occurs single

/-- The rightmost occurrence begins with the last letter of the one before it, so that one is exchanged. -/
theorem banana_not_rightmost :
    (∃ i, OccursAt ["a", "n", "a"] banana.letters i) ∧
      (¬ ∃ u v, banana.letters = u ++ ["a", "n", "a"] ++ v ∧
        (∀ i, OccursAt ["a", "n", "a"] banana.letters i → i ≤ u.length) ∧
        (banana.replace ⟨["a", "n", "a"]⟩ ⟨["o"]⟩ .last).letters = u ++ ["o"] ++ v) ∧
      banana.replace ⟨["a", "n", "a"]⟩ ⟨["o"]⟩ .last ≠
        (banana.mirrored.replace (mirrored ⟨["a", "n", "a"]⟩) (mirrored ⟨["o"]⟩) .first).mirrored := by
  have last : OccursAt ["a", "n", "a"] banana.letters 3 := ⟨["b", "a", "n"], [], rfl, rfl⟩
  refine ⟨⟨3, last⟩, ?_, by decide⟩
  rintro ⟨u, v, here, rightmost, exchanged⟩
  have low := rightmost 3 last
  have before := congrArg (List.take 2) here
  have after := congrArg (List.take 2) exchanged
  rw [List.append_assoc, List.take_append_of_le_length (by omega)] at before after
  exact absurd (before.trans after.symm) (by decide)

/-- A sequence that does not end as it begins. -/
theorem banana_rightmost :
    (∃ i, OccursAt ["a", "n"] banana.letters i) ∧ ¬ Overlaps ["a", "n"] ∧ banana.EndsRightmost ⟨["a", "n"]⟩ ∧
      ∀ new : Word, banana.replace ⟨["a", "n"]⟩ new .last =
        (banana.mirrored.replace (mirrored ⟨["a", "n"]⟩) new.mirrored .first).mirrored := by
  have occurs : ∃ i, OccursAt ["a", "n"] banana.letters i := ⟨1, ["b"], ["a", "n", "a"], rfl, rfl⟩
  have apart : ¬ Overlaps ["a", "n"] := by
    rintro ⟨border, some, short, ahead, behind⟩
    have single : border.length = 1 := by
      have positive := List.length_pos_iff.mpr some
      simp only [List.length_cons, List.length_nil] at short
      omega
    obtain ⟨c, rfl⟩ := List.length_eq_one_iff.mp single
    have begins : c = "a" := by simpa using ahead
    subst begins
    exact absurd behind (by decide)
  have always := replace_last_exchanges ⟨["a", "n"]⟩ rfl
  have rightmost := always.2.mpr apart banana occurs
  exact ⟨occurs, apart, rightmost, (always.1 banana occurs).2.2.mp rightmost⟩

end Word

end Etymology
