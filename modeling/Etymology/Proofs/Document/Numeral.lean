import Mathlib.Algebra.Group.Int.Defs
import Mathlib.Algebra.Group.Nat.Defs
import Etymology.Predicate.Definition
import Etymology.Proofs.Control

namespace Etymology

namespace Text

theorem isDigit_of_mem_numeral {n : Nat} {c : Char} (member : c ∈ (toString n).toList) :
    c.isDigit = true := by
  rw [Nat.toString_eq_ofList_toDigits, String.toList_ofList] at member
  exact Nat.isDigit_of_mem_toDigits (by decide) (Nat.le_refl 10) member

theorem numeral_injective {m n : Nat} (same : (toString m).toList = (toString n).toList) : m = n := by
  rw [Nat.toString_eq_ofList_toDigits, Nat.toString_eq_ofList_toDigits, String.toList_ofList,
    String.toList_ofList] at same
  have values := congrArg (Nat.ofDigitChars 10 · 0) same
  rwa [Nat.ofDigitChars_ten_toDigits, Nat.ofDigitChars_ten_toDigits] at values

theorem length_numeral_le_iff {n k : Nat} (positive : 0 < k) : (toString n).length ≤ k ↔ n < 10 ^ k := by
  rw [Nat.toString_eq_ofList_toDigits, String.length_ofList]
  exact Nat.length_toDigits_le_iff (by decide) positive

end Text

/-- An integer of more decimal digits than may be written out. -/
def Overlong (n : Int) : Prop :=
  10 ^ 4300 ≤ n.natAbs

theorem natAbs_ten_pow (k : Nat) : ((10 : Int) ^ k).natAbs = 10 ^ k :=
  Int.natAbs_pow 10 k

theorem overlong_ten_pow : Overlong (10 ^ 4300) :=
  Nat.le_of_eq (natAbs_ten_pow 4300).symm

theorem Scalar.integerText?_eq_none_iff {n : Int} : integerText? n = none ↔ Overlong n := by
  have short : (toString n.natAbs).length ≤ 4300 ↔ n.natAbs < 10 ^ 4300 := Text.length_numeral_le_iff (Nat.succ_pos _)
  rw [Overlong, ← Nat.not_lt, ← short, integerText?]
  simp only [ite_eq_right_iff, reduceCtorEq, imp_false]

theorem Overlong.ne_zero {n : Int} (long : Overlong n) : n ≠ 0 := by
  rintro rfl
  exact absurd (Scalar.integerText?_eq_none_iff.mpr long) (by decide)

/-- A value that has no text, since there is an integer in it that is too long for one. -/
inductive Value.Untold : Value → Prop
  | int {n} : Overlong n → Untold (.scalar (.int n))
  | item {items v} : v ∈ items → Untold v → Untold (.list items)
  | key {entries k v} : (k, v) ∈ entries → Untold (.scalar k) → Untold (.mapping entries)
  | value {entries k v} : (k, v) ∈ entries → Untold v → Untold (.mapping entries)

theorem Scalar.quoted?_eq_none_iff {s : Scalar} : s.quoted? = none ↔ (Value.scalar s).Untold := by
  cases s with
  | int n =>
    rw [quoted?, integerText?_eq_none_iff]
    exact ⟨.int, fun | .int long => long⟩
  | _ => exact ⟨nofun, nofun⟩

theorem Scalar.written?_eq_none_iff {s : Scalar} : s.written? = none ↔ (Value.scalar s).Untold := by
  cases s with
  | int n => exact quoted?_eq_none_iff (s := .int n)
  | _ => exact ⟨nofun, nofun⟩

namespace Value

theorem untold_list_iff {items : List Value} : (Value.list items).Untold ↔ ∃ v ∈ items, v.Untold := by
  constructor
  · rintro (_ | ⟨member, untold⟩)
    exact ⟨_, member, untold⟩
  · rintro ⟨v, member, untold⟩
    exact .item member untold

theorem untold_mapping_iff {entries : Entries} :
    (Value.mapping entries).Untold ↔ ∃ e ∈ entries, (Value.scalar e.1).Untold ∨ e.2.Untold := by
  constructor
  · rintro (_ | _ | ⟨member, untold⟩ | ⟨member, untold⟩)
    · exact ⟨_, member, .inl untold⟩
    · exact ⟨_, member, .inr untold⟩
  · rintro ⟨e, member, untold | untold⟩
    · exact .key member untold
    · exact .value member untold

theorem untold_of_getD {entries : Entries} {key : String} (untold : (entries.getD key).Untold) :
    (Value.mapping entries).Untold := by
  unfold Entries.getD Entries.get? at untold
  cases found : entries.find? fun e => e.1 == .text key with
  | none =>
    rw [found] at untold
    cases untold
  | some e =>
    rw [found] at untold
    exact .value (List.mem_of_find?_eq_some found) untold

/-- Nothing that counts as absent is without a text. -/
theorem Untold.isTruthy {v : Value} (untold : v.Untold) : v.isTruthy = true := by
  cases untold with
  | @int n long =>
    simp [Value.isTruthy, Value.isFalsy, Scalar.isFalsy, long.ne_zero]
  | item member => simpa [Value.isTruthy, Value.isFalsy] using List.ne_nil_of_mem member
  | key member => simpa [Value.isTruthy, Value.isFalsy] using List.ne_nil_of_mem member
  | value member => simpa [Value.isTruthy, Value.isFalsy] using List.ne_nil_of_mem member

mutual

theorem quoted?_eq_none_iff : ∀ v : Value, v.quoted? = none ↔ v.Untold
  | .scalar _ => Scalar.quoted?_eq_none_iff
  | .list items => by
    rw [quoted?, Option.map_eq_none_iff, quotedItems?_eq_none_iff items, untold_list_iff]
  | .mapping entries => by
    rw [quoted?, Option.map_eq_none_iff, quotedEntries?_eq_none_iff entries, untold_mapping_iff]

theorem quotedItems?_eq_none_iff : ∀ items : List Value, quotedItems? items = none ↔ ∃ v ∈ items, v.Untold
  | [] => by simp [quotedItems?]
  | v :: rest => by
    rw [List.exists_mem_cons_iff, ← quoted?_eq_none_iff v, ← quotedItems?_eq_none_iff rest, quotedItems?]
    cases v.quoted? <;> cases quotedItems? rest <;> simp

theorem quotedEntries?_eq_none_iff :
    ∀ entries : Entries, quotedEntries? entries = none ↔ ∃ e ∈ entries, (Value.scalar e.1).Untold ∨ e.2.Untold
  | [] => by simp [quotedEntries?]
  | (k, v) :: rest => by
    rw [List.exists_mem_cons_iff, ← Scalar.quoted?_eq_none_iff, ← quoted?_eq_none_iff v,
      ← quotedEntries?_eq_none_iff rest, quotedEntries?]
    cases k.quoted? <;> cases v.quoted? <;> cases quotedEntries? rest <;> simp

end

theorem written?_eq_none_iff {v : Value} : v.written? = none ↔ v.Untold := by
  cases v with
  | scalar s => exact Scalar.written?_eq_none_iff
  | list items => exact quoted?_eq_none_iff _
  | mapping entries => exact quoted?_eq_none_iff _

theorem mapM_written?_eq_none_iff {items : List Value} :
    items.mapM written? = none ↔ (Value.list items).Untold := by
  simp only [Option.mapM_eq_none_iff, untold_list_iff, written?_eq_none_iff]

theorem literal?_eq_none_iff {v : Value} : v.literal? = none ↔ v.Untold := by
  unfold literal?
  split
  · exact ⟨nofun, nofun⟩
  · exact written?_eq_none_iff

theorem mapM_literal?_eq_none_iff {items : List Value} :
    items.mapM literal? = none ↔ (Value.list items).Untold := by
  simp only [Option.mapM_eq_none_iff, untold_list_iff, literal?_eq_none_iff]

end Value

end Etymology
