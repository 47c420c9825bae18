import Etymology.Proofs.Letters.Occurrence
import Mathlib.Tactic.Ring

namespace Etymology

/-- Of so many occurrences an edit at a place acts on the one with this number. -/
def Place.ActsOn : Place → Nat → Nat → Prop
  | .first, _, i => i = 0
  | .last, count, i => i + 1 = count
  | .all, _, _ => True

instance (place : Place) (count : Nat) : DecidablePred (place.ActsOn count) := fun i =>
  match place with
  | .first => inferInstanceAs (Decidable (i = 0))
  | .last => inferInstanceAs (Decidable (i + 1 = count))
  | .all => inferInstanceAs (Decidable True)

/-- Stretches with a filling in each of the places between them. -/
def filled (filling : Nat → List String) (g : List String) : List (List String) → List String
  | [] => g
  | h :: gs => g ++ filling 0 ++ filled (fun i => filling (i + 1)) h gs

section

variable {old new w g : List String} {gs : List (List String)}

theorem intercalate_eq_filled (sep g : List String) (gs : List (List String)) :
    sep.intercalate (g :: gs) = filled (fun _ => sep) g gs := by
  induction gs generalizing g with
  | nil => simp [List.intercalate, filled]
  | cons h gs ih =>
    rw [filled, ← ih h]
    simp [List.intercalate]

/-- What stands in a word between the stretches is what they are taken around. -/
theorem Parted.eq_filled (parted : Parted old w (g :: gs)) : w = filled (fun _ => old) g gs := by
  generalize stretches : g :: gs = parts at parted
  induction parted generalizing g gs with
  | whole =>
    cases stretches
    rfl
  | before _ parted ih =>
    cases stretches
    obtain ⟨h, hs, rfl⟩ := List.exists_cons_of_ne_nil parted.ne_nil
    rw [filled, ← ih rfl]

theorem joinFirst_eq_filled (old new g : List String) (gs : List (List String)) :
    joinFirst old new (g :: gs) = filled (fun i => if i = 0 then new else old) g gs := by
  cases gs with
  | nil => simp [joinFirst, filled]
  | cons h gs =>
    rw [joinFirst, filled, intercalate_eq_filled, if_pos rfl]
    rfl

theorem joinLast_eq_filled (old new g : List String) (gs : List (List String)) :
    joinLast old new (g :: gs) = filled (fun i => if i + 1 = gs.length then new else old) g gs := by
  induction gs generalizing g with
  | nil => simp [joinLast, filled]
  | cons h gs ih =>
    cases gs with
    | nil => rfl
    | cons k gs =>
      -- The number of the last occurrence is one less for the stretches behind the first.
      have early : ¬ 0 + 1 = (h :: k :: gs).length := by simp
      have rest : (fun i => if i + 1 + 1 = (h :: k :: gs).length then new else old) =
          fun i => if i + 1 = (k :: gs).length then new else old := by
        funext i
        simp only [List.length_cons, Nat.add_right_cancel_iff]
      rw [filled, if_neg early, rest, ← ih h]
      rfl

/-- Each exchange adds the difference of the two sequences. -/
theorem length_filled (old new g : List String) (gs : List (List String)) (p : Nat → Prop) [DecidablePred p] :
    ((filled (fun i => if p i then new else old) g gs).length : Int) =
      (filled (fun _ => old) g gs).length + (List.range gs.length).countP p * (new.length - old.length : Int) := by
  induction gs generalizing g p with
  | nil => simp [filled]
  | cons h gs ih =>
    have rest := ih h (fun i => p (i + 1))
    have counted : (List.range (h :: gs).length).countP p =
        (List.range gs.length).countP (fun i => p (i + 1)) + if p 0 then 1 else 0 := by
      rw [List.length_cons, List.range_succ_eq_map, List.countP_cons, List.countP_map]
      simp only [decide_eq_true_eq]
      rfl
    simp only [filled, List.length_append, Nat.cast_add, rest, counted]
    split <;> push_cast <;> ring

end

namespace Word

variable {w old new : Word} {g : List String} {gs : List (List String)}

theorem letters_ne_nil (some : old.isEmpty = false) : old.letters ≠ [] := by
  simpa [isEmpty] using some

/-- An edit exchanges what it acts on, and leaves the other occurrences and all that stands around them. -/
theorem letters_replace (some : old.isEmpty = false) (parted : Parted old.letters w.letters (g :: gs)) (new : Word)
    (place : Place) : (w.replace old new place).letters =
      filled (fun i => if place.ActsOn gs.length i then new.letters else old.letters) g gs := by
  have found : gaps old.letters 0 w.letters = g :: gs := (parted_gaps (letters_ne_nil some) w.letters).unique parted
  rw [replace, if_neg (by simp [some])]
  cases place with
  | first => exact found ▸ joinFirst_eq_filled old.letters new.letters g gs
  | last => exact found ▸ joinLast_eq_filled old.letters new.letters g gs
  | all =>
    have everywhere : (fun i => if Place.all.ActsOn gs.length i then new.letters else old.letters) =
        fun _ => new.letters := funext fun _ => if_pos trivial
    rw [everywhere]
    exact found ▸ intercalate_eq_filled new.letters g gs

theorem replace_of_isEmpty (none : old.isEmpty = true) (place : Place) : w.replace old new place = w :=
  if_pos none

theorem replace_absent (some : old.isEmpty = false) (absent : ∀ i, ¬ OccursAt old.letters w.letters i) (place : Place) :
    w.replace old new place = w :=
  congrArg Word.mk (letters_replace some (.whole absent) new place)

theorem replace_self (w old : Word) (place : Place) : w.replace old old place = w := by
  cases none : old.isEmpty with
  | true => exact replace_of_isEmpty none place
  | false =>
    obtain ⟨g, gs, parted⟩ := exists_parted (letters_ne_nil none) w.letters
    have letters := letters_replace none parted old place
    simp only [ite_self] at letters
    exact congrArg Word.mk (letters.trans parted.eq_filled.symm)

/-- At the first place the leftmost occurrence is exchanged. -/
theorem letters_replace_first (some : old.isEmpty = false) {u v : List String} (here : w.letters = u ++ old.letters ++ v)
    (leftmost : ∀ i, OccursAt old.letters w.letters i → u.length ≤ i) (new : Word) :
    (w.replace old new .first).letters = u ++ new.letters ++ v := by
  obtain ⟨g, gs, rest⟩ := exists_parted (letters_ne_nil some) v
  have parted : Parted old.letters w.letters (u :: g :: gs) := by
    rw [here] at leftmost ⊢
    exact .before leftmost rest
  rw [letters_replace some parted, filled, rest.eq_filled]
  rfl

/-- A word is cut in one way around the occurrences that are taken from the left, and edits act on these: on the first,
which is the leftmost of all, on the last, or on every one of them. What they act on is exchanged and all else stays. -/
theorem replace_exchanges (w old new : Word) :
    (old.isEmpty = false → ∃ g gs, Parted old.letters w.letters (g :: gs) ∧
      (∀ hs, Parted old.letters w.letters hs → hs = g :: gs) ∧ w.letters = filled (fun _ => old.letters) g gs ∧
      (∀ place,
        (w.replace old new place).letters =
          filled (fun i => if place.ActsOn gs.length i then new.letters else old.letters) g gs ∧
        (w.remove old place).letters = filled (fun i => if place.ActsOn gs.length i then [] else old.letters) g gs ∧
        ((w.replace old new place).length : Int) =
          w.length + (List.range gs.length).countP (place.ActsOn gs.length) * (new.length - old.length : Int)) ∧
      (w.replaceMatch old new).letters = filled (fun i => if i = 0 then new.letters else old.letters) g gs ∧
      ∀ u v, w.letters = u ++ old.letters ++ v → (∀ i, OccursAt old.letters w.letters i → u.length ≤ i) →
        (w.replaceMatch old new).letters = u ++ new.letters ++ v) ∧
      (old.isEmpty = true ∨ (∀ i, ¬ OccursAt old.letters w.letters i) → ∀ place, w.replace old new place = w) ∧
      ∀ place, w.replace old old place = w := by
  refine ⟨fun some => ?_, fun nothing place => ?_, replace_self w old⟩
  · obtain ⟨g, gs, parted⟩ := exists_parted (letters_ne_nil some) w.letters
    refine ⟨g, gs, parted, fun hs again => again.unique parted, parted.eq_filled, fun place => ⟨?_, ?_, ?_⟩, ?_, ?_⟩
    · exact letters_replace some parted new place
    · exact letters_replace some parted empty place
    · rw [length, letters_replace some parted new place, length_filled, ← parted.eq_filled]
      rfl
    · exact letters_replace some parted new .first
    · exact fun u v here leftmost => letters_replace_first some here leftmost new
  · rcases nothing with none | absent
    · exact replace_of_isEmpty none place
    · cases none : old.isEmpty with
      | true => exact replace_of_isEmpty none place
      | false => exact replace_absent none absent place

def banana : Word :=
  ⟨["b", "a", "n", "a", "n", "a"]⟩

/-- The sequence occurs twice, with nothing between. -/
theorem banana_exchanges :
    Parted ["a", "n"] banana.letters [["b"], [], ["a"]] ∧
      (banana.replace ⟨["a", "n"]⟩ ⟨["o"]⟩ .last).letters = ["b", "a", "n", "o", "a"] ∧
      (banana.remove ⟨["a", "n"]⟩ .all).letters = ["b", "a"] ∧
      (∀ i, OccursAt ["a", "n"] banana.letters i → 1 ≤ i) ∧
      (banana.replaceMatch ⟨["a", "n"]⟩ ⟨["o"]⟩).letters = ["b"] ++ ["o"] ++ ["a", "n", "a"] ∧
      (∀ i, ¬ OccursAt ["n", "n"] banana.letters i) ∧ banana.replace ⟨["n", "n"]⟩ ⟨["o"]⟩ .all = banana := by
  obtain ⟨g, gs, parted, -, -, places, -, first⟩ := (replace_exchanges banana ⟨["a", "n"]⟩ ⟨["o"]⟩).1 (by decide)
  have cut : g :: gs = [["b"], [], ["a"]] := parted.unique (parted_gaps (by decide) banana.letters)
  have leftmost (i : Nat) (occurs : OccursAt ["a", "n"] banana.letters i) : 1 ≤ i := by
    cases i with
    | zero => exact absurd (occursAt_zero_iff.mp occurs) (by decide)
    | succ i => exact Nat.le_add_left 1 i
  have absent (i : Nat) : ¬ OccursAt ["n", "n"] banana.letters i := by
    have whole : Parted ["n", "n"] banana.letters [banana.letters] := parted_gaps (by decide) banana.letters
    exact fun occurs => whole.ne_nil_of_occursAt ⟨i, occurs⟩ rfl
  cases cut
  exact ⟨parted, (places .last).1, (places .all).2.1, leftmost, first ["b"] ["a", "n", "a"] rfl leftmost, absent,
    (replace_exchanges banana ⟨["n", "n"]⟩ ⟨["o"]⟩).2.1 (.inr absent) .all⟩

end Word

end Etymology
