import Etymology.Text.Composed
import Mathlib.Data.List.Chain

namespace Etymology.Text

/-- Two texts are the same but for marks of different classes that have changed places. -/
inductive Reordered : List Char → List Char → Prop
  | refl (cs) : Reordered cs cs
  | cons (c) {cs ds} : Reordered cs ds → Reordered (c :: cs) (c :: ds)
  | swap {a b} (cs) : combiningClass a ≠ 0 → combiningClass b ≠ 0 → combiningClass a ≠ combiningClass b →
      Reordered (a :: b :: cs) (b :: a :: cs)
  | trans {cs ds es} : Reordered cs ds → Reordered ds es → Reordered cs es

variable {a b c mark : Char} {cs ds marks : List Char} {cluster : Cluster}

theorem Reordered.append_left (same : Reordered cs ds) (es : List Char) : Reordered (es ++ cs) (es ++ ds) := by
  induction es with
  | nil => exact same
  | cons e es ih => exact ih.cons e

/-- A mark of a higher class may change places with all marks that it stands behind. -/
theorem reordered_of_lt (lower : ∀ m ∈ marks, combiningClass m ≠ 0 ∧ combiningClass m < combiningClass c)
    (cs : List Char) : Reordered (c :: (marks ++ cs)) (marks ++ c :: cs) := by
  induction marks with
  | nil => exact .refl _
  | cons m marks ih =>
    obtain ⟨⟨marked, less⟩, later⟩ := List.forall_mem_cons.mp lower
    have first : Reordered (c :: m :: (marks ++ cs)) (m :: c :: (marks ++ cs)) :=
      .swap _ (by omega) marked (by omega)
    exact first.trans ((ih later).cons m)

theorem insertMark_comm (different : combiningClass a ≠ combiningClass b) (marks : List Char) :
    insertMark a (insertMark b marks) = insertMark b (insertMark a marks) := by
  induction marks with
  | nil =>
    by_cases le : combiningClass b ≤ combiningClass a
    · have less : ¬ combiningClass a ≤ combiningClass b := by omega
      simp [insertMark, le, less]
    · have less : combiningClass a ≤ combiningClass b := by omega
      simp [insertMark, le, less]
  | cons m marks ih =>
    by_cases behindA : combiningClass m ≤ combiningClass a <;> by_cases behindB : combiningClass m ≤ combiningClass b
    · simp [insertMark, behindA, behindB, ih]
    · have less : combiningClass b ≤ combiningClass a := by omega
      simp [insertMark, behindA, behindB, less]
    · have less : combiningClass a ≤ combiningClass b := by omega
      simp [insertMark, behindA, behindB, less]
    · by_cases le : combiningClass b ≤ combiningClass a
      · have less : ¬ combiningClass a ≤ combiningClass b := by omega
        simp [insertMark, behindA, behindB, le, less]
      · have less : combiningClass a ≤ combiningClass b := by omega
        simp [insertMark, behindA, behindB, le, less]

/-- Marks that have changed places are put in the same order. -/
theorem Reordered.reorderFrom_eq (same : Reordered cs ds) (cluster : Cluster) :
    reorderFrom cluster cs = reorderFrom cluster ds := by
  induction same generalizing cluster with
  | refl => rfl
  | cons c _ ih => simp only [reorderFrom, ih]
  | swap cs markedA markedB different =>
    simp only [reorderFrom, beq_iff_eq, markedA, markedB, if_false, insertMark_comm different]
  | trans _ _ first second => exact (first cluster).trans (second cluster)

theorem insertMark_perm (mark : Char) (marks : List Char) : (insertMark mark marks).Perm (mark :: marks) := by
  induction marks with
  | nil => exact .refl _
  | cons m marks ih =>
    rw [insertMark]
    split
    · exact (ih.cons m).trans (.swap mark m marks)
    · exact .refl _

theorem reorderFrom_perm (cluster : Cluster) (cs : List Char) : (reorderFrom cluster cs).Perm (cluster.chars ++ cs) := by
  induction cs generalizing cluster with
  | nil => rw [reorderFrom, List.append_nil]
  | cons c cs ih =>
    rw [reorderFrom]
    split
    · exact (ih ⟨some c, []⟩).append_left cluster.chars
    · refine (ih _).trans ?_
      have moved : (cluster.starter.toList ++ insertMark c cluster.marks).Perm (cluster.chars ++ [c]) := by
        rw [Cluster.chars, List.append_assoc]
        exact ((insertMark_perm c cluster.marks).trans (List.perm_append_singleton c _).symm).append_left _
      have whole := moved.append_right cs
      rwa [List.append_assoc cluster.chars] at whole

/-- No mark stands behind one of a higher class. -/
def InOrder (cs : List Char) : Prop :=
  cs.IsChain fun a b => combiningClass b = 0 ∨ combiningClass a ≤ combiningClass b

/-- Marks by class, ties in any order. -/
def Graded (marks : List Char) : Prop :=
  marks.Pairwise fun a b => combiningClass a ≤ combiningClass b

theorem Graded.insertMark (graded : Graded marks) (mark : Char) : Graded (insertMark mark marks) := by
  induction marks with
  | nil => exact List.pairwise_singleton _ _
  | cons m marks ih =>
    obtain ⟨least, later⟩ := List.pairwise_cons.mp graded
    rw [Text.insertMark]
    by_cases behind : combiningClass m ≤ combiningClass mark
    · rw [if_pos behind]
      refine List.pairwise_cons.mpr ⟨fun n member => ?_, ih later⟩
      rcases List.mem_cons.mp ((insertMark_perm mark marks).mem_iff.mp member) with rfl | old
      · exact behind
      · exact least n old
    · rw [if_neg behind]
      refine List.pairwise_cons.mpr ⟨fun n member => ?_, graded⟩
      rcases List.mem_cons.mp member with rfl | old
      · omega
      · have atLeast := least n old
        omega

theorem Graded.inOrder (graded : Graded marks) : InOrder marks :=
  (List.Pairwise.isChain graded).imp fun _ _ => Or.inr

theorem Cluster.inOrder_chars (starts : ∀ s ∈ cluster.starter, combiningClass s = 0) (graded : Graded cluster.marks) :
    InOrder cluster.chars := by
  rw [chars]
  cases first : cluster.starter with
  | none => exact graded.inOrder
  | some s =>
    have zero : combiningClass s = 0 := starts s first
    refine List.isChain_append.mpr ⟨.singleton s, graded.inOrder, ?_⟩
    intro x last m _
    obtain rfl : s = x := by simpa using last
    exact Or.inr (by omega)

theorem head?_reorderFrom (c : Char) (marks cs : List Char) : (reorderFrom ⟨some c, marks⟩ cs).head? = some c := by
  induction cs generalizing marks with
  | nil => rfl
  | cons d cs ih =>
    rw [reorderFrom]
    split
    · rfl
    · exact ih _

/-- Marks that are put in order are in order. -/
theorem inOrder_reorderFrom (starts : ∀ s ∈ cluster.starter, combiningClass s = 0) (graded : Graded cluster.marks)
    (cs : List Char) : InOrder (reorderFrom cluster cs) := by
  induction cs generalizing cluster with
  | nil =>
    rw [reorderFrom]
    exact Cluster.inOrder_chars starts graded
  | cons c cs ih =>
    rw [reorderFrom]
    by_cases zero : combiningClass c = 0
    · rw [if_pos (by simpa using zero)]
      have rest : InOrder (reorderFrom ⟨some c, []⟩ cs) :=
        ih (fun s same => Option.some.inj same ▸ zero) List.Pairwise.nil
      refine List.isChain_append.mpr ⟨Cluster.inOrder_chars starts graded, rest, ?_⟩
      intro x _ y first
      rw [head?_reorderFrom] at first
      exact Or.inl (Option.some.inj first ▸ zero)
    · rw [if_neg (by simpa using zero)]
      exact ih starts (graded.insertMark c)

/-- In a text that is in order, no mark of a cluster is of a higher class than the mark behind them. -/
theorem InOrder.le_of_marks (ordered : InOrder (marks ++ c :: cs)) (marked : ∀ m ∈ marks, combiningClass m ≠ 0)
    (behind : combiningClass c ≠ 0) : ∀ m ∈ marks, combiningClass m ≤ combiningClass c := by
  induction marks with
  | nil => exact nofun
  | cons m marks ih =>
    obtain ⟨-, later⟩ := List.forall_mem_cons.mp marked
    have rest := ih ordered.tail later
    refine List.forall_mem_cons.mpr ⟨?_, rest⟩
    cases marks with
    | nil =>
      have step := (List.isChain_cons_cons.mp ordered).1
      omega
    | cons n marks =>
      have step := (List.isChain_cons_cons.mp ordered).1
      have least := rest n List.mem_cons_self
      have some := later n List.mem_cons_self
      omega

theorem insertMark_of_le (least : ∀ m ∈ marks, combiningClass m ≤ combiningClass mark) :
    insertMark mark marks = marks ++ [mark] := by
  induction marks with
  | nil => rfl
  | cons m marks ih =>
    obtain ⟨here, later⟩ := List.forall_mem_cons.mp least
    rw [insertMark, if_pos here, ih later, List.cons_append]

/-- What is in order stays as it is. -/
theorem reorderFrom_of_inOrder (marked : ∀ m ∈ cluster.marks, combiningClass m ≠ 0)
    (ordered : InOrder (cluster.marks ++ cs)) : reorderFrom cluster cs = cluster.chars ++ cs := by
  induction cs generalizing cluster with
  | nil => rw [reorderFrom, List.append_nil]
  | cons c cs ih =>
    rw [reorderFrom]
    by_cases zero : combiningClass c = 0
    · have rest : InOrder cs := (List.isChain_append.mp ordered).2.1.tail
      have fresh : reorderFrom ⟨some c, []⟩ cs = c :: cs := ih (fun m member => nomatch member) rest
      rw [if_pos (by simpa using zero), fresh]
    · have last := insertMark_of_le (ordered.le_of_marks marked zero)
      have more : ∀ m ∈ cluster.marks ++ [c], combiningClass m ≠ 0 :=
        List.forall_mem_append.mpr ⟨marked, List.forall_mem_singleton.mpr zero⟩
      rw [if_neg (by simpa using zero), last, ih more (by simpa using ordered)]
      simp [Cluster.chars]

end Etymology.Text
