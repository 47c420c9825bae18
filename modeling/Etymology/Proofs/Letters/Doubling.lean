import Etymology.Proofs.Letters.Rightmost
import Mathlib.Logic.Function.Iterate

namespace Etymology

/-- An edit of letters that exchanges the leftmost occurrence of a sequence and leaves a word without any as it is. -/
structure ExchangesFirst (old new : List String) (edit : List String → List String) : Prop where
  idle : ∀ w, (∀ i, ¬ OccursAt old w i) → edit w = w
  exchanged : ∀ u v, (∀ i, ¬ OccursAt old u i) → edit (u ++ old ++ v) = u ++ new ++ v

/-- Nowhere in a word does a letter stand twice in a row. -/
def Undoubled (l : String) (w : List String) : Prop :=
  ∀ i, ¬ OccursAt [l, l] w i

section

variable {old new u v w : List String} {l c : String}

/-- The leftmost occurrence has no other before it. -/
theorem absent_of_leftmost (some : old ≠ []) (leftmost : ∀ i, OccursAt old (u ++ old ++ v) i → u.length ≤ i) (i : Nat) :
    ¬ OccursAt old u i := by
  intro occurs
  have fits := occurs.add_le_length
  have positive := List.length_pos_iff.mpr some
  obtain ⟨a, b, rfl, rfl⟩ := occurs
  have low := leftmost a.length ⟨a, b ++ old ++ v, by simp only [List.append_assoc], rfl⟩
  omega

theorem absent_reverse (absent : ∀ i, ¬ OccursAt old w i) (i : Nat) : ¬ OccursAt old.reverse w.reverse i := by
  intro occurs
  obtain ⟨j, back, -⟩ := occurs.reverse
  rw [List.reverse_reverse, List.reverse_reverse] at back
  exact absent j back

theorem not_mem_of_absent (absent : ∀ i, ¬ OccursAt [l] w i) : l ∉ w := by
  intro member
  obtain ⟨u, v, rfl⟩ := List.append_of_mem member
  exact absent u.length ⟨u, v, by simp, rfl⟩

theorem undoubled_of_absent (absent : ∀ i, ¬ OccursAt [l] w i) : Undoubled l w := by
  rintro i ⟨u, v, rfl, -⟩
  exact absent u.length ⟨u, l :: v, by simp, rfl⟩

theorem undoubled_cons_iff : Undoubled l (c :: w) ↔ ¬ (c = l ∧ w.head? = some l) ∧ Undoubled l w := by
  have first : OccursAt [l, l] (c :: w) 0 ↔ c = l ∧ w.head? = some l := by
    rw [occursAt_zero_iff]
    cases w <;> simp [List.cons_prefix_cons, eq_comm]
  constructor
  · intro undoubled
    exact ⟨fun here => undoubled 0 (first.mpr here), fun i later => undoubled (i + 1) (occursAt_succ_iff.mpr later)⟩
  · rintro ⟨here, later⟩ (_ | i) occurs
    · exact here (first.mp occurs)
    · exact later i (occursAt_succ_iff.mp occurs)

theorem doubleFirst_exchanges (l : String) : ExchangesFirst [l] [l, l] (doubleFirst l) where
  idle w absent := by
    have other := not_mem_of_absent absent
    clear absent
    induction w with
    | nil => rfl
    | cons c w ih =>
      rw [List.mem_cons, not_or] at other
      rw [doubleFirst, if_neg (Ne.symm other.1), ih other.2]
  exchanged u v absent := by
    have other := not_mem_of_absent absent
    clear absent
    induction u with
    | nil => simp [doubleFirst]
    | cons c u ih =>
      rw [List.mem_cons, not_or] at other
      simp only [List.cons_append, doubleFirst, if_neg (Ne.symm other.1)]
      exact congrArg (c :: ·) (ih other.2)

theorem dedoubleFirst_cons (l c : String) (w : List String) :
    dedoubleFirst l (c :: w) = if c = l ∧ w.head? = some l then w else c :: dedoubleFirst l w := by
  cases w with
  | nil => simp [dedoubleFirst]
  | cons b w => simp only [dedoubleFirst, List.head?_cons, Option.some.injEq]

/-- A run that goes on into the occurrence loses the same letter, wherever in the run it is taken out. -/
theorem dedoubleFirst_exchanges (l : String) : ExchangesFirst [l, l] [l] (dedoubleFirst l) where
  idle w undoubled := by
    induction w with
    | nil => rfl
    | cons c w ih =>
      obtain ⟨here, later⟩ := undoubled_cons_iff.mp undoubled
      rw [dedoubleFirst_cons, if_neg here, ih later]
  exchanged u v undoubled := by
    induction u with
    | nil => simp [dedoubleFirst]
    | cons c u ih =>
      obtain ⟨here, later⟩ := undoubled_cons_iff.mp undoubled
      rw [List.cons_append, List.cons_append, dedoubleFirst_cons]
      split
      · next both =>
        obtain ⟨rfl, next⟩ := both
        cases u with
        | nil => rfl
        | cons b u => exact absurd ⟨rfl, next⟩ here
      · exact congrArg (c :: ·) (ih later)

theorem dedoubleFirst_sublist (l : String) (w : List String) : (dedoubleFirst l w).Sublist w := by
  induction w with
  | nil => exact .slnil
  | cons c w ih =>
    rw [dedoubleFirst_cons]
    split
    · exact .cons c (.refl w)
    · exact ih.cons_cons c

theorem dedoubleAll_cons (l c : String) (w : List String) :
    dedoubleAll l (c :: w) = if c = l ∧ w.head? = some l then dedoubleAll l w else c :: dedoubleAll l w := by
  cases w with
  | nil => simp [dedoubleAll]
  | cons b w => simp only [dedoubleAll, List.head?_cons, Option.some.injEq]

theorem head?_dedoubleAll (l : String) (w : List String) : (dedoubleAll l w).head? = w.head? := by
  induction w with
  | nil => rfl
  | cons c w ih =>
    rw [dedoubleAll_cons]
    split
    · next both => rw [ih, both.1, both.2, List.head?_cons]
    · rfl

theorem undoubled_dedoubleAll (l : String) (w : List String) : Undoubled l (dedoubleAll l w) := by
  induction w with
  | nil => exact fun i => not_occursAt_nil (List.cons_ne_nil _ _)
  | cons c w ih =>
    rw [dedoubleAll_cons]
    split
    · exact ih
    · next other => exact undoubled_cons_iff.mpr ⟨by rwa [head?_dedoubleAll], ih⟩

theorem dedoubleAll_of_undoubled (undoubled : Undoubled l w) : dedoubleAll l w = w := by
  induction w with
  | nil => rfl
  | cons c w ih =>
    obtain ⟨here, later⟩ := undoubled_cons_iff.mp undoubled
    rw [dedoubleAll_cons, if_neg here, ih later]

/-- What stands before a word decides nothing on what collapsing makes of the word. -/
theorem dedoubleAll_append_congr (same : dedoubleAll l v = dedoubleAll l w) (u : List String) :
    dedoubleAll l (u ++ v) = dedoubleAll l (u ++ w) := by
  induction u with
  | nil => exact same
  | cons c u ih =>
    have heads := congrArg List.head? ih
    rw [head?_dedoubleAll, head?_dedoubleAll] at heads
    rw [List.cons_append, List.cons_append, dedoubleAll_cons, dedoubleAll_cons, ih, heads]

theorem dedoubleAll_two (l : String) (w : List String) : dedoubleAll l ([l, l] ++ w) = dedoubleAll l ([l] ++ w) := by
  simp [dedoubleAll]

theorem dedoubleAll_sublist (l : String) (w : List String) : (dedoubleAll l w).Sublist w := by
  induction w with
  | nil => exact .slnil
  | cons c w ih =>
    rw [dedoubleAll_cons]
    split
    · exact ih.cons c
    · exact ih.cons_cons c

theorem filter_dedoubleAll (l : String) (w : List String) :
    (dedoubleAll l w).filter (· ≠ l) = w.filter (· ≠ l) := by
  induction w with
  | nil => rfl
  | cons c w ih =>
    rw [dedoubleAll_cons]
    split
    · next both => rw [ih, both.1, List.filter_cons_of_neg (by simp)]
    · simp only [List.filter_cons, ih]

/-- Whether a letter or two of it stand between stretches makes no difference once repeats are collapsed. -/
theorem dedoubleAll_filled_congr {f h : Nat → List String}
    (same : ∀ i v, dedoubleAll l (f i ++ v) = dedoubleAll l (h i ++ v)) (g : List String) (gs : List (List String)) :
    dedoubleAll l (filled f g gs) = dedoubleAll l (filled h g gs) := by
  induction gs generalizing f h g with
  | nil => rfl
  | cons k gs ih =>
    have rest : dedoubleAll l (filled (fun i => f (i + 1)) k gs) = dedoubleAll l (filled (fun i => h (i + 1)) k gs) :=
      ih (fun i => same (i + 1)) k
    rw [filled, filled, List.append_assoc, List.append_assoc]
    exact dedoubleAll_append_congr ((dedoubleAll_append_congr rest _).trans (same 0 _)) g

theorem doubleAll_append (other : l ∉ u) (w : List String) : doubleAll l (u ++ w) = u ++ doubleAll l w := by
  induction u with
  | nil => rfl
  | cons c u ih =>
    rw [List.mem_cons, not_or] at other
    rw [List.cons_append, doubleAll, if_neg (Ne.symm other.1), ih other.2, List.cons_append]

theorem Parted.doubleAll_eq_filled {g : List String} {gs : List (List String)} (parted : Parted [l] w (g :: gs)) :
    doubleAll l w = filled (fun _ => [l, l]) g gs := by
  generalize stretches : g :: gs = parts at parted
  induction parted generalizing g gs with
  | @whole w absent =>
    cases stretches
    simpa [doubleAll, filled] using doubleAll_append (not_mem_of_absent absent) []
  | before leftmost parted ih =>
    cases stretches
    obtain ⟨h, hs, rfl⟩ := List.exists_cons_of_ne_nil parted.ne_nil
    have other := not_mem_of_absent (absent_of_leftmost (List.cons_ne_nil l []) leftmost)
    rw [filled, ← ih rfl, List.append_assoc, doubleAll_append other]
    simp [doubleAll]

/-- The letter that was doubled first is the first that is repeated. -/
theorem dedoubleFirst_doubleFirst (l : String) (w : List String) : dedoubleFirst l (doubleFirst l w) = w := by
  by_cases occurs : ∃ i, OccursAt [l] w i
  · obtain ⟨u, v, rfl, leftmost⟩ := exists_leftmost (List.cons_ne_nil l []) occurs
    have absent := absent_of_leftmost (List.cons_ne_nil l []) leftmost
    rw [(doubleFirst_exchanges l).exchanged u v absent,
      (dedoubleFirst_exchanges l).exchanged u v (undoubled_of_absent absent)]
  · have absent := not_exists.mp occurs
    rw [(doubleFirst_exchanges l).idle w absent, (dedoubleFirst_exchanges l).idle w (undoubled_of_absent absent)]

end

namespace Word

section

variable {old new w : Word} {edit : List String → List String} {l : String}

theorem replace_first_of_exchanges (some : old.isEmpty = false)
    (exchanges : ExchangesFirst old.letters new.letters edit) (w : Word) : w.replace old new .first = ⟨edit w.letters⟩ := by
  by_cases occurs : ∃ i, OccursAt old.letters w.letters i
  · obtain ⟨u, v, here, leftmost⟩ := exists_leftmost (letters_ne_nil some) occurs
    have absent := absent_of_leftmost (letters_ne_nil some) (here ▸ leftmost)
    refine congrArg Word.mk ((letters_replace_first some here leftmost new).trans ?_)
    rw [here, exchanges.exchanged u v absent]
  · have absent := not_exists.mp occurs
    rw [replace_absent some absent, exchanges.idle _ absent]

/-- The last occurrence that is taken may overlap one that begins later, but for an edit that is given its reverse the
first occurrence ends where that one does. -/
theorem replace_last_of_exchanges (old new : Word) (some : old.isEmpty = false)
    (exchanges : ExchangesFirst old.letters.reverse new.letters.reverse edit) (w : Word) :
    w.replace old new .last = ⟨(edit w.letters.reverse).reverse⟩ := by
  by_cases occurs : ∃ i, OccursAt old.letters w.letters i
  · obtain ⟨u, v, here, -, absent, last⟩ := letters_replace_last some occurs
    have mirrored : w.letters.reverse = v.reverse ++ old.letters.reverse ++ u.reverse := by
      rw [here, List.reverse_append, List.reverse_append, List.append_assoc]
    refine congrArg Word.mk ((last new).trans ?_)
    rw [mirrored, exchanges.exchanged _ _ (absent_reverse absent)]
    simp only [List.reverse_append, List.reverse_reverse, List.append_assoc]
  · have absent := not_exists.mp occurs
    rw [replace_absent some absent, exchanges.idle _ (absent_reverse absent), List.reverse_reverse]

theorem double_eq_replace (w : Word) (l : String) (place : Place) :
    w.double l place = w.replace ⟨[l]⟩ ⟨[l, l]⟩ place := by
  cases place with
  | first => exact (replace_first_of_exchanges rfl (doubleFirst_exchanges l) w).symm
  | last => exact (replace_last_of_exchanges ⟨[l]⟩ ⟨[l, l]⟩ rfl (doubleFirst_exchanges l) w).symm
  | all =>
    obtain ⟨g, gs, parted⟩ := exists_parted (List.cons_ne_nil l []) w.letters
    exact congrArg Word.mk (parted.doubleAll_eq_filled.trans (letters_replace rfl parted ⟨[l, l]⟩ .all).symm)

theorem dedouble_first_eq_replace (w : Word) (l : String) :
    w.dedouble l .first = w.replace ⟨[l, l]⟩ ⟨[l]⟩ .first :=
  (replace_first_of_exchanges rfl (dedoubleFirst_exchanges l) w).symm

theorem dedouble_last_eq_replace (w : Word) (l : String) :
    w.dedouble l .last = w.replace ⟨[l, l]⟩ ⟨[l]⟩ .last :=
  (replace_last_of_exchanges ⟨[l, l]⟩ ⟨[l]⟩ rfl (dedoubleFirst_exchanges l) w).symm

/-- Wherever letters are doubled, collapsing takes them back to what it would have left of the word. -/
theorem dedouble_all_double (w : Word) (l : String) (place : Place) :
    (w.double l place).dedouble l .all = w.dedouble l .all := by
  obtain ⟨g, gs, parted⟩ := exists_parted (List.cons_ne_nil l []) w.letters
  rw [double_eq_replace]
  refine congrArg Word.mk ?_
  rw [letters_replace rfl parted, parted.eq_filled]
  refine dedoubleAll_filled_congr (fun i v => ?_) g gs
  split
  · exact dedoubleAll_two l v
  · rfl

/-- Every two of a letter, as they are found from the left, made one. A run of three loses one letter so. -/
def halve (l : String) (w : Word) : Word :=
  w.replace ⟨[l, l]⟩ ⟨[l]⟩ .all

theorem dedouble_all_halve (w : Word) (l : String) : (halve l w).dedouble l .all = w.dedouble l .all := by
  obtain ⟨g, gs, parted⟩ := exists_parted (List.cons_ne_nil l [l]) w.letters
  refine congrArg Word.mk ?_
  rw [halve, letters_replace rfl parted, parted.eq_filled]
  refine dedoubleAll_filled_congr (fun i v => ?_) g gs
  split
  · exact (dedoubleAll_two l v).symm
  · rfl

theorem halve_of_undoubled (undoubled : Undoubled l w.letters) : halve l w = w :=
  replace_absent rfl undoubled .all

theorem length_halve_lt (doubled : ¬ Undoubled l w.letters) : (halve l w).length < w.length := by
  obtain ⟨g, gs, parted⟩ := exists_parted (List.cons_ne_nil l [l]) w.letters
  have some : 0 < gs.length := by
    refine List.length_pos_iff.mpr (parted.ne_nil_of_occursAt ?_)
    simpa only [Undoubled, not_forall, not_not] using doubled
  have every : (List.range gs.length).countP (Place.all.ActsOn gs.length) = gs.length := by
    have each : ∀ i ∈ List.range gs.length, decide (Place.all.ActsOn gs.length i) = true := fun _ _ => rfl
    rw [List.countP_eq_length.mpr each, List.length_range]
  have counted := length_filled [l, l] [l] g gs (Place.all.ActsOn gs.length)
  rw [← parted.eq_filled, every] at counted
  rw [length, length, halve, letters_replace rfl parted]
  simp only [List.length_cons, List.length_nil] at counted ⊢
  omega

theorem halve_eq_self_iff : halve l w = w ↔ Undoubled l w.letters := by
  constructor
  · intro same
    by_contra doubled
    exact absurd (congrArg length same) (length_halve_lt doubled).ne
  · exact halve_of_undoubled

theorem dedouble_all_eq_self_iff : w.dedouble l .all = w ↔ Undoubled l w.letters := by
  constructor
  · intro same
    have undoubled := undoubled_dedoubleAll l w.letters
    rwa [show dedoubleAll l w.letters = w.letters from congrArg letters same] at undoubled
  · exact fun undoubled => congrArg Word.mk (dedoubleAll_of_undoubled undoubled)

/-- While a letter is repeated each round makes the word shorter. -/
theorem iterate_halve {n : Nat} (enough : w.length ≤ n) : (halve l)^[n] w = w.dedouble l .all := by
  induction n generalizing w with
  | zero =>
    obtain ⟨letters⟩ := w
    obtain rfl := List.length_eq_zero_iff.mp (Nat.le_zero.mp enough)
    rfl
  | succ n ih =>
    rw [Function.iterate_succ_apply]
    by_cases undoubled : Undoubled l w.letters
    · have fixed := halve_of_undoubled undoubled
      rw [fixed, Function.iterate_fixed fixed, dedouble_all_eq_self_iff.mpr undoubled]
    · have shorter := length_halve_lt undoubled
      rw [ih (by omega), dedouble_all_halve]

theorem dedouble_all_iterate_halve (w : Word) (l : String) (n : Nat) :
    ((halve l)^[n] w).dedouble l .all = w.dedouble l .all := by
  induction n generalizing w with
  | zero => rfl
  | succ n ih => rw [Function.iterate_succ_apply, ih, dedouble_all_halve]

end

/-- Doubling a letter is replacing it by two, and collapsing a repeat of it at the first or the last place is replacing
two by one. Collapsing all repeats leaves none and takes no other letter; it is what replacing two by one everywhere
comes to when it is done again and again, and nothing before that is left as it is. -/
theorem doubling_by_replacement (w : Word) (l : String) :
    (∀ place, w.double l place = w.replace ⟨[l]⟩ ⟨[l, l]⟩ place) ∧
      w.dedouble l .first = w.replace ⟨[l, l]⟩ ⟨[l]⟩ .first ∧
      w.dedouble l .last = w.replace ⟨[l, l]⟩ ⟨[l]⟩ .last ∧
      Undoubled l (w.dedouble l .all).letters ∧
      (∀ n, (halve l)^[w.length + n] w = w.dedouble l .all) ∧
      (∀ n, halve l ((halve l)^[n] w) = (halve l)^[n] w ↔ (halve l)^[n] w = w.dedouble l .all) ∧
      (w.dedouble l .all).letters.filter (· ≠ l) = w.letters.filter (· ≠ l) := by
  refine ⟨double_eq_replace w l, dedouble_first_eq_replace w l, dedouble_last_eq_replace w l,
    undoubled_dedoubleAll l w.letters, fun n => iterate_halve (Nat.le_add_right _ _), fun n => ?_,
    filter_dedoubleAll l w.letters⟩
  rw [halve_eq_self_iff, ← dedouble_all_eq_self_iff, dedouble_all_iterate_halve, eq_comm]

/-- One round leaves a repeat in a run of three. -/
example : halve "l" ⟨["l", "l", "l"]⟩ = ⟨["l", "l"]⟩ ∧ dedouble ⟨["l", "l", "l"]⟩ "l" .all = ⟨["l"]⟩ := by decide

/-- What was doubled at the first or the last place is found again there, whatever runs the word has, and collapsing all
repeats takes the letters with it that were doubled. Doing so once more changes nothing. -/
theorem dedouble_undoes_double (w : Word) (l : String) :
    (w.double l .first).dedouble l .first = w ∧ (w.double l .last).dedouble l .last = w ∧
      (w.double l .all).dedouble l .all = w.dedouble l .all ∧
      (w.dedouble l .all).dedouble l .all = w.dedouble l .all := by
  refine ⟨?_, ?_, dedouble_all_double w l .all, dedouble_all_eq_self_iff.mpr (undoubled_dedoubleAll l w.letters)⟩
  · exact congrArg Word.mk (dedoubleFirst_doubleFirst l w.letters)
  · simp only [double, dedouble, List.reverse_reverse, dedoubleFirst_doubleFirst]

end Word

end Etymology
