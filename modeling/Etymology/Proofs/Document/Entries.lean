import Etymology.Document.Value

namespace Etymology

/-- Nothing else counts as the same key as a text. -/
theorem Scalar.sameKey_text (k : Scalar) (s : String) : k.sameKey (.text s) = (k == .text s) := by
  cases k with
  | text t => by_cases same : t = s <;> simp [sameKey, keyForm, same]
  | float x =>
    have other : ((Scalar.float x).keyForm == .text s) = false := by
      simp only [keyForm]
      cases Decimal.integral? x <;> rfl
    rw [sameKey, show (Scalar.text s).keyForm = .text s from rfl, other]
    rfl
  | _ => rfl

namespace Entries

/-- The entries under all other keys. -/
def without (es : Entries) (key : String) : Entries :=
  es.filter fun e => e.1 != .text key

theorem get?_without_self (es : Entries) (key : String) : (es.without key).get? key = none := by
  simp [get?, without]

theorem get?_without (es : Entries) {key other : String} (different : other ≠ key) :
    (es.without key).get? other = es.get? other := by
  have kept : ∀ e : Scalar × Value,
      decide ((e.1 != .text key) = true ∧ (e.1 == .text other) = true) = (e.1 == .text other) := by
    intro e
    by_cases here : e.1 = .text other
    · simp [here, different]
    · simp [here]
  rw [get?, without, List.find?_filter]
  simp only [kept, get?]

theorem getD_without_self (es : Entries) (key : String) : (es.without key).getD key = .null := by
  rw [getD, get?_without_self]
  rfl

theorem getD_without (es : Entries) {key other : String} (different : other ≠ key) :
    (es.without key).getD other = es.getD other := by
  rw [getD, get?_without es different, getD]

theorem put_text (es : Entries) (key : String) (v : Value) :
    es.put (.text key) v = if es.any fun e => e.1 == .text key then
      es.map fun e => if e.1 == .text key then (e.1, v) else e
    else es ++ [(.text key, v)] := by
  simp only [put, Scalar.sameKey_text]

theorem get?_put_self (es : Entries) (key : String) (v : Value) : (es.put (.text key) v).get? key = some v := by
  have keys : (fun e : Scalar × Value => e.1 == .text key) ∘
      (fun e => if e.1 == .text key then (e.1, v) else e) = fun e => e.1 == .text key := by
    funext e
    simp only [Function.comp_apply]
    split <;> rfl
  rw [put_text]
  split
  · next present =>
    rw [get?, List.find?_map, keys]
    obtain ⟨e, found⟩ := Option.isSome_iff_exists.mp (List.find?_isSome.mpr (List.any_eq_true.mp present))
    have here : e.1 = .text key := by simpa using List.find?_some found
    simp [found, here]
  · next absent =>
    have unknown : es.find? (fun e => e.1 == .text key) = none :=
      List.find?_eq_none.mpr (List.any_eq_false.mp (Bool.not_eq_true _ ▸ absent))
    simp [get?, List.find?_append, unknown]

/-- A write matters to its own key only. -/
theorem without_put (es : Entries) (key : String) (v : Value) : (es.put (.text key) v).without key = es.without key := by
  rw [put_text]
  split
  · have keys : ((fun e : Scalar × Value => e.1 != .text key) ∘
        fun e => if e.1 == .text key then (e.1, v) else e) = fun e => e.1 != .text key := by
      funext e
      simp only [Function.comp_apply]
      split <;> rfl
    have others : ∀ e ∈ es.without key, (if e.1 == .text key then (e.1, v) else e) = id e := by
      intro e member
      have other : e.1 ≠ .text key := by simpa using (List.mem_filter.mp member).2
      simp [other]
    rw [without, List.filter_map, keys]
    exact (List.map_congr_left others).trans (List.map_id _)
  · rw [without, List.filter_append, without]
    simp

end Entries

/-- The entries of a value that is to be a mapping, none where it counts as absent. -/
def Value.section? : Value → Option Entries
  | .mapping entries => some entries
  | v => if v.isFalsy then some [] else none

/-- The members of a value that is to be a list, none where it counts as absent. -/
def Value.items? : Value → Option (List Value)
  | .list items => some items
  | v => if v.isFalsy then some [] else none

end Etymology
