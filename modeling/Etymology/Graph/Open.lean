namespace Etymology

/-- The total weight of the members of a list that are open. -/
def openWeight {α : Type} (weight : α → Nat) (isOpen : α → Bool) : List α → Nat
  | [] => 0
  | a :: l => (if isOpen a then weight a else 0) + openWeight weight isOpen l

/-- The total weight of the members of a list. -/
def totalWeight {α : Type} (weight : α → Nat) : List α → Nat
  | [] => 0
  | a :: l => weight a + totalWeight weight l

theorem openWeight_le {α : Type} (weight : α → Nat) {isOpen isOpen' : α → Bool}
    (closes : ∀ a, isOpen' a = true → isOpen a = true) (l : List α) :
    openWeight weight isOpen' l ≤ openWeight weight isOpen l := by
  induction l with
  | nil => exact Nat.le_refl _
  | cons a l ih =>
    have here := closes a
    simp only [openWeight]
    split <;> split
    · omega
    · simp_all
    · omega
    · omega

theorem openWeight_le_totalWeight {α : Type} (weight : α → Nat) (isOpen : α → Bool) (l : List α) :
    openWeight weight isOpen l ≤ totalWeight weight l := by
  induction l with
  | nil => exact Nat.le_refl _
  | cons a l ih =>
    simp only [openWeight, totalWeight]
    split <;> omega

/-- Closing a member takes its weight away. -/
theorem openWeight_add_le {α : Type} (weight : α → Nat) {isOpen isOpen' : α → Bool} {a : α}
    {l : List α} (closes : ∀ a, isOpen' a = true → isOpen a = true) (member : a ∈ l)
    (before : isOpen a = true) (after : isOpen' a = false) :
    openWeight weight isOpen' l + weight a ≤ openWeight weight isOpen l := by
  induction l with
  | nil => simp at member
  | cons b l ih =>
    simp only [openWeight]
    rcases List.mem_cons.1 member with rfl | later
    · have rest := openWeight_le weight closes l
      simp only [before, after, if_true, Bool.false_eq_true, if_false]
      omega
    · have rest := ih later
      have here := closes b
      split <;> split <;> simp_all <;> omega

end Etymology
