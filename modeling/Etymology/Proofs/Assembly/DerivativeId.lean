import Etymology.Assembly
import Etymology.Proofs.Document.Numeral

namespace Etymology

/-- The id is that of the parent's derivative at the index, or continues it with anything but a digit. -/
def Beneath (parent : String) (index : Nat) (id : String) : Prop :=
  ∃ rest : List Char, id.toList = (derivativeId parent index).toList ++ rest ∧
    ∀ c ∈ rest.head?, c.isDigit = false

theorem toList_derivativeId (parent : String) (index : Nat) :
    (derivativeId parent index).toList =
      parent.toList ++ "-autoderive-".toList ++ (toString index).toList := by
  simp only [derivativeId, String.toList_append]

namespace Beneath

variable {parent id : String} {index other : Nat}

theorem self (parent : String) (index : Nat) : Beneath parent index (derivativeId parent index) :=
  ⟨[], (List.append_nil _).symm, nofun⟩

/-- A derivative of a derivative is beneath whatever that is beneath. -/
theorem deeper (below : Beneath (derivativeId parent index) other id) : Beneath parent index id := by
  obtain ⟨rest, spelt, -⟩ := below
  refine ⟨"-autoderive-".toList ++ (toString other).toList ++ rest, ?_, ?_⟩
  · rw [spelt, toList_derivativeId (derivativeId parent index)]
    simp only [List.append_assoc]
  · intro c first
    obtain rfl : '-' = c := by simpa using first
    rfl

theorem ne_parent (below : Beneath parent index id) : id ≠ parent := by
  rintro rfl
  obtain ⟨rest, spelt, -⟩ := below
  have lengths := congrArg List.length spelt
  simp only [toList_derivativeId, List.length_append] at lengths
  have separator : "-autoderive-".toList.length = 12 := rfl
  omega

/-- The digits at the start of a continued number are those of the number. -/
theorem takeWhile_numeral {n : Nat} {rest : List Char} (stops : ∀ c ∈ rest.head?, c.isDigit = false) :
    ((toString n).toList ++ rest).takeWhile Char.isDigit = (toString n).toList := by
  rw [List.takeWhile_append_of_pos fun c member => Text.isDigit_of_mem_numeral member]
  cases rest with
  | nil => simp
  | cons c rest => simp [stops c rfl]

theorem index_unique (one : Beneath parent index id) (two : Beneath parent other id) : index = other := by
  obtain ⟨rest, spelt, stops⟩ := one
  obtain ⟨more, again, ends⟩ := two
  rw [toList_derivativeId, List.append_assoc] at spelt again
  have tails := List.append_cancel_left (spelt.symm.trans again)
  have digits := congrArg (List.takeWhile Char.isDigit) tails
  rw [takeWhile_numeral stops, takeWhile_numeral ends] at digits
  exact Text.numeral_injective digits

end Beneath

end Etymology
