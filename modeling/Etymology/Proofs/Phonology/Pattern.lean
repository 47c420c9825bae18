import Etymology.Phonology.Basic
import Etymology.Proofs.Text.Runs
import Mathlib.Data.String.Basic

namespace Etymology

namespace PatternItem

/-- The text of a phoneme, or the symbol of a group. -/
def text : PatternItem → String
  | phoneme text => text
  | group symbol => symbol

/-- What a token gives: some text without blanks, which is a phoneme exactly if it has a lowercase character. -/
structure Spelled (item : PatternItem) : Prop where
  nonempty : item.text ≠ ""
  unbroken : ∀ c ∈ item.text.toList, Text.isBlank c = false
  lowercase : (∃ text, item = phoneme text) ↔ ∃ c ∈ item.text.toList, Text.isLower c = true

theorem text_ofToken (token : List Char) : (ofToken token).text = String.ofList token := by
  unfold ofToken
  split <;> rfl

/-- The text of an item decides which kind of item it is. -/
theorem ofToken_text {item : PatternItem} (spelled : item.Spelled) : ofToken item.text.toList = item := by
  have kind := spelled.lowercase
  rw [← List.any_eq_true] at kind
  rw [ofToken, String.ofList_toList]
  cases item with
  | phoneme text =>
    have lower := kind.mp ⟨text, rfl⟩
    rw [if_pos lower]
    rfl
  | group symbol =>
    have caps := mt kind.mpr (by simp)
    rw [if_neg caps]
    rfl

theorem spelled_ofToken {token : List Char} (given : token ≠ []) (unbroken : ∀ c ∈ token, Text.isBlank c = false) :
    (ofToken token).Spelled where
  nonempty := by
    rw [text_ofToken]
    exact mt String.ofList_eq_empty_iff.mp given
  unbroken := by
    rw [text_ofToken, String.toList_ofList]
    exact unbroken
  lowercase := by
    rw [text_ofToken, String.toList_ofList, ofToken, ← List.any_eq_true]
    split
    · next lower => exact ⟨fun _ => lower, fun _ => ⟨_, rfl⟩⟩
    · next caps =>
      refine ⟨?_, fun lower => absurd lower caps⟩
      rintro ⟨_, ⟨⟩⟩

end PatternItem

namespace Pattern

/-- The tokens that a text is cut into: its single characters, if none of them is blank. -/
def tokensOf (s : String) : List (List Char) :=
  if s.toList.any Text.isBlank then Text.tokens s.toList else s.toList.map fun c => [c]

theorem ofText_eq_map (s : String) : ofText s = (tokensOf s).map PatternItem.ofToken := rfl

/-- Whichever way it is cut, the tokens are the text without its blanks. -/
theorem flatten_tokensOf (s : String) : (tokensOf s).flatten = s.toList.filter fun c => !Text.isBlank c := by
  unfold tokensOf
  split
  · exact Text.flatten_runs Text.isBlank s.toList
  · next solid =>
    have kept : s.toList.filter (fun c => !Text.isBlank c) = s.toList :=
      List.filter_eq_self.mpr fun c member => by simpa using fun blank => solid (List.any_eq_true.mpr ⟨c, member, blank⟩)
    rw [kept, ← List.flatMap_def, List.flatMap_singleton']

theorem ne_nil_of_mem_tokensOf {s : String} {token : List Char} (member : token ∈ tokensOf s) : token ≠ [] := by
  unfold tokensOf at member
  split at member
  · exact Text.ne_nil_of_mem_runs member
  · obtain ⟨c, -, rfl⟩ := List.mem_map.mp member
    exact List.cons_ne_nil c []

theorem not_isBlank_of_mem_tokensOf {s : String} {token : List Char} (member : token ∈ tokensOf s) (c : Char)
    (inside : c ∈ token) : Text.isBlank c = false := by
  unfold tokensOf at member
  split at member
  · exact Text.not_sep_of_mem_runs member c inside
  · next solid =>
    obtain ⟨d, among, rfl⟩ := List.mem_map.mp member
    obtain rfl := List.mem_singleton.mp inside
    rw [Bool.eq_false_iff]
    exact fun blank => solid (List.any_eq_true.mpr ⟨c, among, blank⟩)

theorem spelled_of_mem_ofText {s : String} {item : PatternItem} (member : item ∈ ofText s) : item.Spelled := by
  rw [ofText_eq_map] at member
  obtain ⟨token, among, rfl⟩ := List.mem_map.mp member
  exact PatternItem.spelled_ofToken (ne_nil_of_mem_tokensOf among) (not_isBlank_of_mem_tokensOf among)

theorem join_text_ofText (s : String) :
    String.join ((ofText s).map PatternItem.text) = String.ofList (s.toList.filter fun c => !Text.isBlank c) := by
  have texts : (ofText s).map PatternItem.text = (tokensOf s).map String.ofList := by
    rw [ofText_eq_map, List.map_map]
    exact List.map_congr_left fun token _ => PatternItem.text_ofToken token
  rw [texts, Text.join_map_ofList, flatten_tokensOf]

/-- A text that gives a pattern: its items one after the other, with a space behind each. -/
def spelling (items : Pattern) : String :=
  " ".intercalate (items.map PatternItem.text) ++ " "

/-- The space at the end is a blank, so that even a single item is cut out as a whole. -/
theorem tokensOf_spelling {items : Pattern} (spelled : ∀ item ∈ items, item.Spelled) :
    tokensOf (spelling items) = items.map fun item => item.text.toList := by
  have chars : (spelling items).toList = [' '].intercalate (items.map fun item => item.text.toList) ++ [' '] := by
    rw [spelling, String.toList_append, String.toList_intercalate, List.map_map]
    rfl
  have blank : Text.isBlank ' ' = true := by decide
  have proper : ∀ r ∈ items.map (fun item => item.text.toList), r ≠ [] ∧ ∀ c ∈ r, Text.isBlank c = false := by
    intro r member
    obtain ⟨item, among, rfl⟩ := List.mem_map.mp member
    exact ⟨mt String.toList_eq_nil_iff.mp (spelled item among).nonempty, (spelled item among).unbroken⟩
  have cut : (spelling items).toList.any Text.isBlank = true := by simp [chars, blank]
  rw [tokensOf, if_pos cut, Text.tokens, chars, Text.runs_intercalate_append blank proper (by simpa using blank),
    Text.runs_cons_of_sep blank]
  exact List.append_nil _

/-- The pattern of a text has items that are some text without blanks each, phonemes exactly if there is a lowercase
character in them; together they are the text without its blanks. And the patterns that are given by their own
spelling are those with such items. -/
theorem ofText_loses_blanks_only (s : String) (items : Pattern) :
    (∀ item ∈ ofText s, item.Spelled) ∧
      String.join ((ofText s).map PatternItem.text) = String.ofList (s.toList.filter fun c => !Text.isBlank c) ∧
      (ofText (spelling items) = items ↔ ∀ item ∈ items, item.Spelled) := by
  refine ⟨fun item => spelled_of_mem_ofText, join_text_ofText s, fun same item member => ?_, fun spelled => ?_⟩
  · exact spelled_of_mem_ofText (same ▸ member)
  · rw [ofText_eq_map, tokensOf_spelling spelled, List.map_map]
    exact (List.map_congr_left fun item member => PatternItem.ofToken_text (spelled item member)).trans (List.map_id _)

end Pattern

end Etymology
