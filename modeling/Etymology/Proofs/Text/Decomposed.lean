import Etymology.Text.Canonical
import Mathlib.Data.List.Basic

namespace Etymology.Text

/-- No character of a table decomposes into nothing. -/
def Decomposing (table : Std.HashMap Nat (List Char)) : Prop :=
  ∀ (n : Nat) (parts : List Char), table[n]? = some parts → parts ≠ []

section Table

variable {table : Std.HashMap Nat (List Char)} {n : Nat} {parts : List Char} {a b whole : Char}

theorem Decomposing.add (sound : Decomposing table) (group : List Char) : Decomposing (addDecomposition table group) := by
  unfold addDecomposition
  split
  · intro n parts found
    rw [Std.HashMap.getElem?_insert] at found
    split at found
    · cases found
      exact List.cons_ne_nil _ _
    · exact sound n parts found
  · exact sound

theorem Decomposing.addAll (sound : Decomposing table) (groups : List (List Char)) :
    Decomposing (groups.foldl addDecomposition table) := by
  induction groups generalizing table with
  | nil => exact sound
  | cons group groups ih => exact ih (sound.add group)

theorem decomposing_listed : Decomposing listedDecompositions :=
  Decomposing.addAll (fun n parts found => by simp at found) _

theorem of_decompositions (found : decompositions[n]? = some parts) :
    listedDecompositions[n]? = some parts ∧ isJamo n = false ∧
      ∀ part ∈ parts, isSyllable part.toNat = false ∧ listedDecompositions[part.toNat]? = none := by
  rw [decompositions, Std.HashMap.getElem?_filter', Option.filter_eq_some_iff] at found
  simpa using found

theorem decompositions_eq_none (absent : listedDecompositions[n]? = none) : decompositions[n]? = none := by
  cases found : decompositions[n]? with
  | none => rfl
  | some parts =>
    have listed := (of_decompositions found).1
    rw [absent] at listed
    cases listed

theorem decompositions_of_isJamo (jamo : isJamo n = true) : decompositions[n]? = none := by
  cases found : decompositions[n]? with
  | none => rfl
  | some parts =>
    have other := (of_decompositions found).2.1
    rw [jamo] at other
    cases other

theorem decompose_of_composites (found : composites[(a.toNat, b.toNat)]? = some whole) :
    decompose whole = decompose a ++ decompose b := by
  rw [composites, Std.HashMap.getElem?_filter', Option.filter_eq_some_iff] at found
  simpa using found.2

end Table

section Syllable

variable {n : Nat} {c : Char}

theorem toNat_ofNat_of_lt (small : n < 0xD800) : (Char.ofNat n).toNat = n := by
  rw [Char.ofNat, dif_pos (Or.inl small)]
  rfl

/-- A character that is neither a syllable nor in the table stands for itself. -/
theorem decompose_eq_self (plain : isSyllable c.toNat = false) (absent : decompositions[c.toNat]? = none) :
    decompose c = [c] := by
  simp only [decompose, Std.HashMap.getD_eq_getD_getElem?, absent, plain, Option.getD_none, Bool.false_eq_true,
    if_false, ite_self]

theorem decompose_jamo (least : 0x1100 ≤ n) (less : n < 0x1200) : decompose (Char.ofNat n) = [Char.ofNat n] := by
  have code : (Char.ofNat n).toNat = n := toNat_ofNat_of_lt (by omega)
  refine decompose_eq_self ?_ ?_
  · rw [code, isSyllable, Bool.and_eq_false_iff, decide_eq_false_iff_not]
    exact Or.inl (by omega)
  · rw [code]
    exact decompositions_of_isJamo (by simp [isJamo, least, less])

theorem exists_syllable (syllable : isSyllable n = true) :
    ∃ lead vowel tail, lead < 19 ∧ vowel < 21 ∧ tail < 28 ∧ n = 0xAC00 + (lead * 21 + vowel) * 28 + tail := by
  simp only [isSyllable, Bool.and_eq_true, decide_eq_true_eq] at syllable
  exact ⟨(n - 0xAC00) / 588, (n - 0xAC00) % 588 / 28, (n - 0xAC00) % 28, by omega, by omega, by omega, by omega⟩

/-- Lead, vowel and tail of a syllable. -/
theorem decompose_syllable {lead vowel tail : Nat} (leads : lead < 19) (vowels : vowel < 21) (tails : tail < 28)
    (code : c.toNat = 0xAC00 + (lead * 21 + vowel) * 28 + tail) :
    decompose c = Char.ofNat (0x1100 + lead) :: Char.ofNat (0x1161 + vowel) ::
      if tail = 0 then [] else [Char.ofNat (0x11A7 + tail)] := by
  have high : ¬ c.toNat < 0xC0 := by omega
  have syllable : isSyllable c.toNat = true := by
    simp only [isSyllable, Bool.and_eq_true, decide_eq_true_eq]
    omega
  have place : c.toNat - 0xAC00 = (lead * 21 + vowel) * 28 + tail := by omega
  have first : ((lead * 21 + vowel) * 28 + tail) / 588 = lead := by omega
  have second : ((lead * 21 + vowel) * 28 + tail) % 588 / 28 = vowel := by omega
  have third : ((lead * 21 + vowel) * 28 + tail) % 28 = tail := by omega
  simp only [decompose, if_neg high, if_pos syllable, decomposeSyllable, place, first, second, third, beq_iff_eq]
  split <;> rfl

end Syllable

variable {c d a b whole : Char}

theorem decompose_ne_nil (c : Char) : decompose c ≠ [] := by
  rw [decompose]
  split
  · exact List.cons_ne_nil _ _
  · split
    · rw [decomposeSyllable]
      split <;> exact List.cons_ne_nil _ _
    · rw [Std.HashMap.getD_eq_getD_getElem?]
      cases found : decompositions[c.toNat]? with
      | none => exact List.cons_ne_nil _ _
      | some parts => exact decomposing_listed _ _ (of_decompositions found).1

/-- What a character decomposes into decomposes no further. -/
theorem decompose_of_mem_decompose (member : d ∈ decompose c) : decompose d = [d] := by
  by_cases low : c.toNat < 0xC0
  · have single : decompose c = [c] := by rw [decompose, if_pos low]
    rw [single] at member
    obtain rfl := List.mem_singleton.mp member
    exact single
  · cases syllable : isSyllable c.toNat with
    | true =>
      obtain ⟨lead, vowel, tail, leads, vowels, tails, code⟩ := exists_syllable syllable
      rw [decompose_syllable leads vowels tails code] at member
      rcases List.mem_cons.mp member with rfl | member
      · exact decompose_jamo (by omega) (by omega)
      · rcases List.mem_cons.mp member with rfl | member
        · exact decompose_jamo (by omega) (by omega)
        · split at member
          · cases member
          · obtain rfl := List.mem_singleton.mp member
            exact decompose_jamo (by omega) (by omega)
    | false =>
      cases found : decompositions[c.toNat]? with
      | none =>
        rw [decompose_eq_self syllable found] at member
        obtain rfl := List.mem_singleton.mp member
        exact decompose_eq_self syllable found
      | some parts =>
        have listed : decompose c = parts := by
          rw [decompose, Std.HashMap.getD_eq_getD_getElem?, found]
          simp [low, syllable]
        rw [listed] at member
        obtain ⟨plain, absent⟩ := (of_decompositions found).2.2 d member
        exact decompose_eq_self plain (decompositions_eq_none absent)

theorem decompose_of_lead_vowel {lead vowel : Nat} (leads : lead < 19) (vowels : vowel < 21)
    (first : a.toNat = 0x1100 + lead) (second : b.toNat = 0x1161 + vowel) :
    decompose (Char.ofNat (0xAC00 + (lead * 21 + vowel) * 28)) = decompose a ++ decompose b := by
  have code : (Char.ofNat (0xAC00 + (lead * 21 + vowel) * 28)).toNat = 0xAC00 + (lead * 21 + vowel) * 28 + 0 :=
    toNat_ofNat_of_lt (by omega)
  rw [decompose_syllable leads vowels (by omega) code, ← Char.ofNat_toNat a, ← Char.ofNat_toNat b, first, second,
    decompose_jamo (by omega) (by omega), decompose_jamo (by omega) (by omega)]
  rfl

theorem decompose_of_syllable_tail {lead vowel tail : Nat} (leads : lead < 19) (vowels : vowel < 21)
    (tails : tail < 28) (some : tail ≠ 0) (first : a.toNat = 0xAC00 + (lead * 21 + vowel) * 28)
    (second : b.toNat = 0x11A7 + tail) :
    decompose (Char.ofNat (0xAC00 + (lead * 21 + vowel) * 28 + tail)) = decompose a ++ decompose b := by
  have code : (Char.ofNat (0xAC00 + (lead * 21 + vowel) * 28 + tail)).toNat =
      0xAC00 + (lead * 21 + vowel) * 28 + tail := toNat_ofNat_of_lt (by omega)
  have bare := decompose_syllable leads vowels (Nat.succ_pos 27) first
  rw [decompose_syllable leads vowels tails code, bare, ← Char.ofNat_toNat b, second,
    decompose_jamo (by omega) (by omega), if_neg some]
  rfl

/-- A composite decomposes into what the two characters that compose to it decompose into. -/
theorem decompose_of_composePair? (composes : composePair? a b = some whole) :
    decompose whole = decompose a ++ decompose b := by
  unfold composePair? at composes
  dsimp only at composes
  split at composes
  · next jamo =>
    simp only [Bool.and_eq_true, decide_eq_true_eq] at jamo
    rw [← Option.some.inj composes]
    exact decompose_of_lead_vowel (by omega) (by omega) (by omega) (by omega)
  · split at composes
    · next untailed =>
      simp only [Bool.and_eq_true, decide_eq_true_eq, beq_iff_eq] at untailed
      obtain ⟨⟨⟨syllable, even⟩, least⟩, less⟩ := untailed
      obtain ⟨lead, vowel, tail, leads, vowels, tails, code⟩ := exists_syllable syllable
      have bare : a.toNat = 0xAC00 + (lead * 21 + vowel) * 28 := by omega
      rw [← Option.some.inj composes, bare]
      exact decompose_of_syllable_tail leads vowels (by omega) (by omega) bare (by omega)
    · exact decompose_of_composites composes

end Etymology.Text
