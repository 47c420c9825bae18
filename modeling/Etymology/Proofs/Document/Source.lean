import Etymology.Document.Source
import Etymology.Proofs.Document.Json
import Mathlib.Data.List.TakeWhile

namespace Etymology.Json

open Document

/-- A text that has a slash or a backslash in it, and no line feed. -/
def TakenForPath (s : String) : Prop :=
  '\n' ∉ s.toList ∧ ('/' ∈ s.toList ∨ '\\' ∈ s.toList)

instance (s : String) : Decidable (TakenForPath s) :=
  inferInstanceAs (Decidable (_ ∧ (_ ∨ _)))

variable {t : Spelling} {es : Entries}

/-- A mapping ends with its brace, and blanks may follow. -/
theorem getLast?_chars (mapping : t.root.value = .mapping es) :
    ∃ c, t.chars.getLast? = some c ∧ (c = '\x7d' ∨ ∃ b : Blank, c = b.char) := by
  obtain ⟨inside, root⟩ := chars_of_mapping mapping
  rcases List.eq_nil_or_concat t.after with nothing | ⟨before, last, more⟩
  · have chars : t.chars = (t.before.chars ++ '\x7b' :: inside) ++ ['\x7d'] := by
      simp [Spelling.chars, root, nothing, Gap.chars]
    exact ⟨'\x7d', chars ▸ List.getLast?_concat, .inl rfl⟩
  · have chars : t.chars = (t.before.chars ++ (t.root.chars ++ before.map Blank.char)) ++ [last.char] := by
      simp [Spelling.chars, more, Gap.chars]
    exact ⟨last.char, chars ▸ List.getLast?_concat, .inr ⟨last, rfl⟩⟩

/-- No mapping is spelled like the name of a file of documents. -/
theorem no_ending (mapping : t.root.value = .mapping es) :
    ([".yaml", ".yml", ".json"].any fun ending => ending.toList.isSuffixOf t.chars) = false := by
  obtain ⟨c, last, kind⟩ := getLast?_chars mapping
  have other : ∀ ending : String, ending.toList.getLast? = some 'l' ∨ ending.toList.getLast? = some 'n' →
      ending.toList.isSuffixOf t.chars = false := by
    intro ending letter
    rw [Bool.eq_false_iff]
    intro isSuffix
    obtain ⟨before, same⟩ := List.isSuffixOf_iff_suffix.mp isSuffix
    rw [← same, List.getLast?_append] at last
    rcases letter with letter | letter
    all_goals
      rw [letter] at last
      cases last
      rcases kind with same | ⟨b, same⟩
      · exact absurd same (by decide)
      · cases b <;> exact absurd same (by decide)
  simp only [List.any_cons, List.any_nil, other ".yaml" (.inl (by decide)), other ".yml" (.inl (by decide)),
    other ".json" (.inr (by decide)), Bool.or_false]

theorem looksLikePath_iff (mapping : t.root.value = .mapping es) :
    looksLikePath t.text = true ↔ TakenForPath t.text := by
  have chars : t.text.toList = t.chars := String.toList_ofList
  simp only [looksLikePath, TakenForPath, chars, no_ending mapping, Bool.or_false, Bool.and_eq_true, Bool.not_eq_true',
    Bool.or_eq_true, List.contains_eq_mem, decide_eq_false_iff_not, decide_eq_true_eq]

/-- Behind a line break nothing is taken for a path. -/
theorem looksLikePath_lineFeed (s : String) : looksLikePath (s ++ "\n") = false := by
  have feed : (s ++ "\n").toList.contains '\n' = true := by
    rw [String.toList_append]
    simp
  simp only [looksLikePath, feed, Bool.not_true, Bool.false_and]

theorem mem_splitSlashes {cs : List Char} {c : Char} (member : c ∈ cs) (other : c ≠ '/') :
    ∃ p ∈ Path.splitSlashes cs, c ∈ p := by
  induction cs with
  | nil => cases member
  | cons d cs ih =>
    rw [Path.splitSlashes]
    rcases List.mem_cons.mp member with rfl | later
    · rw [if_neg (by simpa using other)]
      split
      · exact ⟨_, List.mem_cons_self, List.mem_cons_self⟩
      · exact ⟨_, List.mem_cons_self, List.mem_cons_self⟩
    · obtain ⟨p, among, inside⟩ := ih later
      split
      · exact ⟨p, List.mem_cons_of_mem _ among, inside⟩
      · split
        · next q qs rest =>
          rw [rest] at among
          rcases List.mem_cons.mp among with rfl | among
          · exact ⟨_, List.mem_cons_self, List.mem_cons_of_mem d inside⟩
          · exact ⟨p, List.mem_cons_of_mem _ among, inside⟩
        · next rest =>
          rw [rest] at among
          cases among

/-- The brace of a mapping stands in a component of the path that its text is. -/
theorem exists_component (mapping : t.root.value = .mapping es) :
    ∃ p ∈ (Path.ofText t.text).components, '\x7b' ∈ p.toList := by
  obtain ⟨inside, root⟩ := chars_of_mapping mapping
  have member : '\x7b' ∈ t.text.toList := by
    rw [Spelling.text, String.toList_ofList, Spelling.chars, root]
    simp
  obtain ⟨p, among, brace⟩ := mem_splitSlashes member (by decide)
  have brace' : '\x7b' ∈ (String.ofList p).toList := by rwa [String.toList_ofList]
  refine ⟨String.ofList p, List.mem_filter.mpr ⟨List.mem_map_of_mem among, ?_⟩, brace'⟩
  rw [Bool.and_eq_true, bne_iff_ne, bne_iff_ne]
  constructor <;> (intro same; rw [same] at brace'; exact absurd brace' (by decide))

/-- So the path leads to no directory; where it leads to no file, it leads nowhere. -/
theorem lookup_text {files : Files} (mapping : t.root.value = .mapping es)
    (unnamed : (files.getD []).lookup (Path.ofText t.text).text = none) :
    (Path.ofText t.text).lookup files = .missing ∨ (Path.ofText t.text).lookup files = .nameTooLong := by
  obtain ⟨p, among, brace⟩ := exists_component mapping
  have some : (Path.ofText t.text).components.dropWhile (· == "..") ≠ [] := by
    intro none
    have up : p = ".." := by simpa using List.dropWhile_eq_nil_iff.mp none p among
    rw [up] at brace
    exact absurd brace (by decide)
  obtain ⟨first, rest, same⟩ := List.exists_cons_of_ne_nil some
  simp only [Path.lookup, unnamed, same]
  split
  · exact .inl rfl
  · split
    · exact .inr rfl
    · split
      · exact .inr rfl
      · exact .inl rfl

/-- A library reads a text for what it spells, if it can read the text at all. -/
def ReadsAs (safeLoad : SafeLoad) (t : Spelling) : Prop :=
  ∀ v, safeLoad t.text = .ok v → v = t.root.value

theorem load_of_readsAs {safeLoad : SafeLoad} (faithful : ReadsAs safeLoad t) (mapping : t.root.value = .mapping es)
    (readable : ∃ v, safeLoad t.text = .ok v) (origin : String) : Document.load safeLoad t.text origin = .ok es := by
  obtain ⟨v, read⟩ := readable
  obtain rfl := (faithful v read).trans mapping
  rw [Document.load, read]

theorem load_ne_missingFile (safeLoad : SafeLoad) (text origin path : String) :
    Document.load safeLoad text origin ≠ .error (.missingFile path) := by
  rw [Document.load]
  split <;> exact nofun

section

variable {safeLoad : SafeLoad} {files : Files} (mapping : t.root.value = .mapping es)
  (unnamed : (files.getD []).lookup (Path.ofText t.text).text = none)

theorem load_lineFeed (safeLoad : SafeLoad) (files : Files) (s : String) :
    Source.load (.text (s ++ "\n")) safeLoad files = Document.load safeLoad (s ++ "\n") "string" := by
  rw [Source.load, looksLikePath_lineFeed, if_neg Bool.false_ne_true]

include mapping

theorem load_of_not_takenForPath (isText : ¬TakenForPath t.text) :
    Source.load (.text t.text) safeLoad files = Document.load safeLoad t.text "string" := by
  rw [Source.load, if_neg (fun looks => isText ((looksLikePath_iff mapping).mp looks))]

include unnamed

theorem load_of_takenForPath (taken : TakenForPath t.text) :
    Source.load (.text t.text) safeLoad files =
      .error (if (Path.ofText t.text).lookup files = .nameTooLong then .unsuitable
        else .missingFile (Path.ofText t.text).text) := by
  rw [Source.load, if_pos ((looksLikePath_iff mapping).mpr taken), loadFile]
  rcases lookup_text mapping unnamed with missing | long
  · simp [missing]
  · simp [long]

/-- A text is missed as a file where it is taken for a path, unless the system refuses to look for it. -/
theorem exists_missingFile_iff : (∃ path, Source.load (.text t.text) safeLoad files = .error (.missingFile path)) ↔
    TakenForPath t.text ∧ (Path.ofText t.text).lookup files ≠ .nameTooLong := by
  constructor
  · rintro ⟨path, failed⟩
    by_cases taken : TakenForPath t.text
    · refine ⟨taken, fun long => ?_⟩
      rw [load_of_takenForPath mapping unnamed taken, if_pos long] at failed
      cases failed
    · rw [load_of_not_takenForPath mapping taken] at failed
      exact absurd failed (load_ne_missingFile _ _ _ _)
  · rintro ⟨taken, short⟩
    exact ⟨_, (load_of_takenForPath mapping unnamed taken).trans (by rw [if_neg short])⟩

end

/-- A text of a mapping that names no file, in any layout and spelling, is loaded for what it spells, if it can be read
at all, unless it has a slash or a backslash in it and no line feed. Such a text is taken for the path of a file that is
missing. With a line feed behind it, a text is loaded for what it spells in any case, if it can be read then. -/
theorem load_text_iff (t : Spelling) {es : Entries} {safeLoad : SafeLoad} {files : Files}
    (mapping : t.root.value = .mapping es) (faithful : ReadsAs safeLoad t) (faithfulFed : ReadsAs safeLoad t.fed)
    (unnamed : (files.getD []).lookup (Path.ofText t.text).text = none) :
    ((∃ v, safeLoad t.text = .ok v) →
      (Source.load (.text t.text) safeLoad files = .ok es ↔ ¬TakenForPath t.text)) ∧
    ((∃ v, safeLoad (t.text ++ "\n") = .ok v) →
      Source.load (.text (t.text ++ "\n")) safeLoad files = .ok es) ∧
    ((∃ v, safeLoad t.text = .ok v) → (∃ v, safeLoad (t.text ++ "\n") = .ok v) →
      (Source.load (.text t.text) safeLoad files = Source.load (.text (t.text ++ "\n")) safeLoad files ↔
        ¬TakenForPath t.text)) ∧
    ((∃ path, Source.load (.text t.text) safeLoad files = .error (.missingFile path)) ↔
      TakenForPath t.text ∧ (Path.ofText t.text).lookup files ≠ .nameTooLong) ∧
    ∀ path, Source.load (.text (t.text ++ "\n")) safeLoad files ≠ .error (.missingFile path) := by
  have alone (readable : ∃ v, safeLoad t.text = .ok v) :
      Source.load (.text t.text) safeLoad files = .ok es ↔ ¬TakenForPath t.text := by
    constructor
    · intro loaded taken
      rw [load_of_takenForPath mapping unnamed taken] at loaded
      cases loaded
    · intro isText
      rw [load_of_not_takenForPath mapping isText, load_of_readsAs faithful mapping readable]
  have fed (readable : ∃ v, safeLoad (t.text ++ "\n") = .ok v) :
      Source.load (.text (t.text ++ "\n")) safeLoad files = .ok es := by
    rw [load_lineFeed, ← t.text_fed]
    exact load_of_readsAs faithfulFed mapping (t.text_fed.symm ▸ readable) "string"
  refine ⟨alone, fed, fun readable readableFed => ?_, exists_missingFile_iff mapping unnamed, fun path => ?_⟩
  · rw [fed readableFed]
    exact alone readable
  · rw [load_lineFeed]
    exact load_ne_missingFile _ _ _ _

/-- A document with one word, which has a slash in it. -/
def slashed : Spelling where
  before := []
  root := .object (.last ⟨[], .plain "words" (by decide), []⟩ [.space]
    (.object (.last ⟨[], .plain "a" (by decide), []⟩ [.space]
      (.object (.last ⟨[], .plain "word" (by decide), []⟩ [.space] (.string (.plain "k/a" (by decide))) [])) [])) [])
  after := []

def slashedEntries : Entries :=
  [(.text "words", .mapping [(.text "a", .mapping [(.text "word", .text "k/a")])])]

/-- A library that reads this text, with a line feed behind it or without, and no other. -/
def slashedLoad : SafeLoad := fun s =>
  if s = slashed.text ∨ s = slashed.text ++ "\n" then .ok (.mapping slashedEntries) else .error .other

theorem slashed_value : slashed.root.value = .mapping slashedEntries := by
  decide

theorem slashed_path : (Path.ofText slashed.text).text = slashed.text := by
  decide +kernel

theorem slashedLoad_text : slashedLoad slashed.text = .ok (.mapping slashedEntries) :=
  if_pos (.inl rfl)

theorem slashedLoad_fed : slashedLoad (slashed.text ++ "\n") = .ok (.mapping slashedEntries) :=
  if_pos (.inr rfl)

/-- It can be read, and is not loaded but missed as a file. With a line feed behind it, it is loaded. -/
theorem slashed_missing :
    slashed.text = "\x7b\"words\": \x7b\"a\": \x7b\"word\": \"k/a\"\x7d\x7d\x7d" ∧
      slashed.root.value = .mapping slashedEntries ∧
      slashedLoad slashed.text = .ok (.mapping slashedEntries) ∧
      Source.load (.text slashed.text) slashedLoad none = .error (.missingFile slashed.text) ∧
      Source.load (.text (slashed.text ++ "\n")) slashedLoad none = .ok slashedEntries := by
  have short : (Path.ofText slashed.text).lookup none ≠ .nameTooLong := by
    decide +kernel
  refine ⟨by decide, slashed_value, slashedLoad_text, ?_, ?_⟩
  · rw [load_of_takenForPath slashed_value rfl (by decide), if_neg short, slashed_path]
  · rw [load_lineFeed, Document.load, slashedLoad_fed]

/-- The same document among other files. -/
theorem slashed_refused :
    (slashed.root.value = .mapping slashedEntries ∧ ReadsAs slashedLoad slashed ∧ ReadsAs slashedLoad slashed.fed ∧
      (Option.getD (some [("tree.json", "null")]) []).lookup (Path.ofText slashed.text).text = none) ∧
    Source.load (.text slashed.text) slashedLoad (some [("tree.json", "null")]) ≠ .ok slashedEntries ∧
    Source.load (.text (slashed.text ++ "\n")) slashedLoad (some [("tree.json", "null")]) = .ok slashedEntries := by
  have unnamed : (Option.getD (some [("tree.json", "null")]) []).lookup (Path.ofText slashed.text).text = none := by
    rw [slashed_path]
    decide
  have faithful : ReadsAs slashedLoad slashed := by
    intro v read
    rw [slashedLoad_text] at read
    exact (Except.ok.inj read).symm.trans slashed_value.symm
  have faithfulFed : ReadsAs slashedLoad slashed.fed := by
    intro v read
    rw [slashed.text_fed, slashedLoad_fed] at read
    exact (Except.ok.inj read).symm.trans slashed_value.symm
  obtain ⟨loaded, fed, -⟩ := load_text_iff slashed slashed_value faithful faithfulFed unnamed
  exact ⟨⟨slashed_value, faithful, faithfulFed, unnamed⟩,
    fun same => (loaded ⟨_, slashedLoad_text⟩).mp same (by decide), fed ⟨_, slashedLoad_fed⟩⟩

end Etymology.Json
