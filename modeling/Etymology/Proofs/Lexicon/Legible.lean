import Etymology.Proofs.Gating
import Etymology.Proofs.Lexicon.Session
import Etymology.Proofs.Phonology.Voiced
import Etymology.Proofs.Transform

namespace Etymology

namespace Primitive

/-- What is added to a word has no empty letters. What is looked for may have some. -/
def Legible : Primitive → Prop
  | .letterReplace _ new _ | .matchReplace _ new => new.Legible
  | .append added | .prepend added => added.Legible
  | _ => True

section

variable {kind : PrimitiveKind} {args : Entries} {key : String} {v : Value} {p : Primitive} {w u : Word}

theorem legible_of_wordArg {mayBeEmpty : Bool} (read : wordArg kind args key mayBeEmpty = .ok w) : w.Legible := by
  obtain ⟨spelling, -, rfl⟩ := map_eq_ok.mp read
  cases spelling with
  | text s => exact Word.legible_ofText s
  | letters ls => exact Word.legible_ofLetters ls

theorem legible_of_letterReplaceFrom {sequences : Entries} (read : letterReplaceFrom sequences args = .ok p) :
    p.Legible := by
  obtain ⟨old, -, read⟩ := bind_eq_ok.mp read
  obtain ⟨new, put, read⟩ := bind_eq_ok.mp read
  obtain ⟨place, -, read⟩ := bind_eq_ok.mp read
  cases read
  exact legible_of_wordArg put

theorem legible_of_letterArrayOf (read : letterArrayOf v = .ok p) : p.Legible := by
  unfold letterArrayOf at read
  simp only at read
  split at read
  · obtain ⟨items, -, same⟩ := bind_eq_ok.mp read
    cases same
    trivial
  · cases read

theorem legible_of_ofMapping (read : ofMapping kind args = .ok p) : p.Legible := by
  cases kind with
  | letterReplace =>
    rw [ofMapping, letterReplaceOf_eq] at read
    split at read
    · exact legible_of_letterReplaceFrom read
    · exact legible_of_letterReplaceFrom read
    · cases read
  | matchReplace =>
    obtain ⟨old, -, read⟩ := bind_eq_ok.mp read
    obtain ⟨new, put, read⟩ := bind_eq_ok.mp read
    cases read
    exact legible_of_wordArg put
  | append =>
    obtain ⟨added, here, read⟩ := bind_eq_ok.mp read
    cases read
    exact legible_of_wordArg here
  | prepend =>
    obtain ⟨added, here, read⟩ := bind_eq_ok.mp read
    cases read
    exact legible_of_wordArg here
  | letterRemove | double | dedouble =>
    obtain ⟨looked, -, read⟩ := bind_eq_ok.mp read
    obtain ⟨place, -, read⟩ := bind_eq_ok.mp read
    cases read
    trivial
  | letterArray => exact legible_of_letterArrayOf (v := .mapping args) read
  | loanword =>
    cases read
    trivial
  | script =>
    obtain ⟨spelling, -, read⟩ := bind_eq_ok.mp read
    cases spelling with
    | text file =>
      cases read
      trivial
    | letters ls => cases read

/-- Whatever is read as a primitive adds no empty letters. -/
theorem legible_of_ofValue (read : ofValue v = .ok p) : p.Legible := by
  unfold ofValue at read
  split at read
  · cases read
    trivial
  · split at read
    · split at read
      · unfold ofArguments at read
        split at read
        · exact legible_of_ofMapping read
        · exact legible_of_ofMapping read
        · cases read
          trivial
        · exact legible_of_letterArrayOf read
        · cases read
      · cases read
    · cases read
  · cases read

theorem apply_legible {source : Lexis} {scripts : Option ScriptRunner} (fine : p.Legible) (legible : w.Legible)
    (run : p.apply w source scripts = .ok u) : u.Legible := by
  cases p with
  | script file =>
    obtain ⟨s, -, rfl⟩ := map_eq_ok.mp run
    exact Word.legible_ofText s
  | letterReplace old new place => cases run; exact legible.replace fine old place
  | matchReplace old new => cases run; exact legible.replace fine old .first
  | letterRemove old place => cases run; exact legible.replace Word.legible_empty old place
  | double letter place => cases run; exact legible.double letter place
  | dedouble letter place => cases run; exact legible.dedouble letter place
  | append ending => cases run; exact legible.append fine
  | prepend beginning => cases run; exact fine.append legible
  | letterArray items => cases run; exact legible.rearrange items
  | loanword => cases run; exact legible

theorem applyAll_legible {source : Lexis} {scripts : Option ScriptRunner} {ps : List Primitive}
    (fine : ∀ p ∈ ps, p.Legible) (legible : w.Legible) (run : applyAll source scripts ps w = .ok u) : u.Legible := by
  induction ps generalizing w with
  | nil =>
    cases run
    exact legible
  | cons p ps ih =>
    obtain ⟨here, later⟩ := List.forall_mem_cons.mp fine
    obtain ⟨v, first, rest⟩ := bind_eq_ok.mp run
    exact ih later (apply_legible here legible first) rest

end

end Primitive

theorem Transform.legible_of_ofParts {primitives conditional : Value} {parts : List Primitive × Option Predicate}
    (read : ofParts primitives conditional = .ok parts) : ∀ p ∈ parts.1, p.Legible := by
  unfold ofParts at read
  split at read
  · obtain ⟨ps, each, read⟩ := bind_eq_ok.mp read
    obtain ⟨condition, -, same⟩ := bind_eq_ok.mp read
    cases same
    intro p member
    obtain ⟨v, -, here⟩ := mem_of_mapM_eq_ok each member
    exact Primitive.legible_of_ofValue here
  · cases read

theorem Transform.legible_of_ofValue {name : String} {v : Value} {t : Transform} (read : ofValue name v = .ok t) :
    ∀ p ∈ t.primitives, p.Legible := by
  cases v with
  | scalar s => cases read
  | list items =>
    rw [ofValue_list] at read
    obtain ⟨parts, made, rfl⟩ := map_eq_ok.mp (mapError_eq_ok.mp read)
    exact legible_of_ofParts made
  | mapping entries =>
    rw [ofValue_mapping] at read
    obtain ⟨parts, made, rfl⟩ := map_eq_ok.mp (mapError_eq_ok.mp read)
    exact legible_of_ofParts made

theorem GlobalRule.legible_of_ofValue {v : Value} {index : Int} {r : GlobalRule} (read : ofValue v index = .ok r) :
    ∀ p ∈ r.primitives, p.Legible := by
  unfold ofValue at read
  split at read
  · have made := mapError_eq_ok.mp read
    unfold ofMapping at made
    split at made
    · obtain ⟨condition, -, made⟩ := bind_eq_ok.mp made
      obtain ⟨ps, each, made⟩ := bind_eq_ok.mp made
      obtain ⟨pair, -, same⟩ := bind_eq_ok.mp made
      cases same
      intro p member
      obtain ⟨v, -, here⟩ := mem_of_mapM_eq_ok each member
      exact Primitive.legible_of_ofValue here
    · cases made
  · cases read

namespace Lexicon

/-- Whatever a lexicon has was read: the words of its lexes are given as texts or letter by letter, and transforms,
rules and phonologies are made of values. -/
structure Read (l : Lexicon) : Prop where
  words : ∀ x ∈ l.graph.nodes, ∀ w, x.word = some w → w.Given
  transforms : ∀ {name t}, l.transforms.get? name = some t → ∃ other v, Transform.ofValue other v = .ok t
  rules : ∀ r ∈ l.rules, ∃ v index, GlobalRule.ofValue v index = .ok r
  phonology : ∀ g, l.generator = some g → g.phonology.Built

section Read

variable {l : Lexicon} {x : Lexis} {id : String} {w u : Word} {p : Pass}

theorem Read.literal (read : l.Read) (member : x ∈ l.graph.nodes) (own : x.literal? = some w) : w.Legible :=
  Word.given_iff_legible.mp (read.words x member w (Option.filter_eq_some_iff.mp own).1)

theorem transformNamed_ok {name : String} {t : Transform} (found : l.transformNamed id name = .ok t) :
    l.transforms.get? name = some t := by
  unfold transformNamed at found
  split at found
  · next look => rw [look, Except.ok.inj found]
  · cases found

/-- What an etymon contributes has no empty letters if its word has none. -/
theorem Read.pipeline (read : l.Read) {link : Etymon} {source : Lexis} (legible : w.Legible)
    (run : l.pipeline id link source w = .ok u) : u.Legible := by
  rw [← contribution_eq_pipeline, contribution] at run
  split at run
  · next ts named =>
    rw [Transform.runSteps_chain_eq_applyAll] at run
    refine Primitive.applyAll_legible (fun p member => ?_) legible (mapError_eq_ok.mp run)
    obtain ⟨t, selected, inside⟩ := List.mem_flatMap.mp member
    obtain ⟨name, -, found⟩ :=
      mem_of_mapM_eq_ok ((mapM_transformNamed l id _).trans named) (List.mem_of_mem_filter selected)
    obtain ⟨other, v, made⟩ := read.transforms (transformNamed_ok found)
    exact Transform.legible_of_ofValue made p inside
  · cases run

/-- Neither have words that are derived from such words. -/
theorem Read.derive (read : l.Read) {word : String → Except Fault Word}
    (given : ∀ e ∈ x.etymons, ∀ v, word e.ancestor = .ok v → v.Legible) (run : l.derive word x = .ok w) :
    w.Legible := by
  unfold Lexicon.derive at run
  split at run
  · next cs absorbed =>
    obtain ⟨links, contributes⟩ := absorb_eq_ok_iff.mp absorbed
    have legible : Word.Legible ⟨cs.flatMap fun c => c.word.letters⟩ := by
      intro letter member
      obtain ⟨c, among, inside⟩ := List.mem_flatMap.mp member
      have link : c.link ∈ x.etymons := mem_orderedEtymons.mp (links ▸ List.mem_map_of_mem among)
      obtain ⟨y, v, -, known, -, contributed⟩ := contributes c among
      exact read.pipeline (given _ link v known) contributed letter inside
    rw [agglutinated, ← GlobalRule.applyAll_eq_runAll, GlobalRule.applyAll_eq_applyAll] at run
    refine Primitive.applyAll_legible (fun p member => ?_) legible run
    obtain ⟨r, selected, inside⟩ := List.mem_flatMap.mp member
    obtain ⟨v, index, made⟩ := read.rules r (List.mem_of_mem_filter selected)
    exact GlobalRule.legible_of_ofValue made p inside
  · cases run

/-- Every word that a pass keeps comes of others that it keeps, and the first of them are given or generated. -/
theorem Read.kept (read : l.Read) (coherent : l.Coherent p) (kept : p.words.get? id = some w) : w.Legible := by
  induction coherent.grounded kept generalizing w with
  | intro id _ ih =>
    obtain ⟨x, found, account⟩ := coherent.accounted kept
    cases account with
    | literal own => exact read.literal (Graph.mem_of_get? found) own
    | generated _ _ _ present run => exact Generator.legible_of_createWordFor (read.phonology _ present).voiced run
    | derived bare linked _ run =>
      refine read.derive (fun e link v known => ?_) run
      have keptThere := Pass.wordOf_eq_ok.mp known
      obtain ⟨y, there, account⟩ := coherent.accounted keptThere
      cases own : y.literal? with
      | none => exact ih e.ancestor ⟨x, y, found, there, bare, own, e, link, rfl⟩ keptThere
      | some u =>
        cases account with
        | literal same => exact read.literal (Graph.mem_of_get? there) same
        | generated other => cases other.symm.trans own
        | derived other => cases other.symm.trans own

end Read

/-- No word of a lexicon that was read has an empty letter, whatever was asked before and whichever choices were made.
So it counts as empty, has no length and is written as nothing in the same cases. -/
theorem resolve_legible {l : Lexicon} (read : l.Read) (picks : Picks) (calls : List Call) (id : String) {w : Word}
    (found : (l.resolve id (l.session calls { picks := picks })).1 = .ok w) :
    (∀ letter ∈ w.letters, letter ≠ "") ∧ (w.isEmpty = true ↔ w.length = 0) ∧ (w.isEmpty = true ↔ w.text = "") := by
  obtain ⟨rest, -, kept⟩ := ((l.atRest_fresh picks).session calls).1.resolve id
  have legible := read.kept rest.coherent (kept w found)
  refine ⟨legible, ?_, legible.isEmpty_iff_text⟩
  rw [Word.isEmpty, List.isEmpty_iff, Word.length, List.length_eq_zero_iff]

/-- An edit of words by a definition that is full of empty letters. -/
def patching : Value :=
  .list [
    .mapping [(.text "double", .mapping [(.text "letter", .list [.text ""]), (.text "position", .text "all")])],
    .mapping [(.text "postfix", .mapping [(.text "value", .list [.text "", .text "k"])])],
    .mapping [(.text "letter_array", .list [.int 2, .int 7, .text "", .int 0])]]

def patchwork : Lexicon where
  graph := {
    nodes := [
      { id := "root", word := some (.ofLetters ["rw", "", "a"]) },
      { id := "child", etymons := [⟨"root", ["patch"], 0⟩] }]
    ids_nodup := by decide }
  transforms := ⟨[("patch", ⟨"patch", [.double "" .all, .append ⟨["k"]⟩,
    .letterArray [.position 2, .position 7, .text "", .position 0]], none⟩)], by decide⟩

theorem read_patchwork : patchwork.Read where
  words x member w own := by
    simp only [patchwork, List.mem_cons, List.not_mem_nil, or_false] at member
    rcases member with rfl | rfl
    · obtain rfl := Option.some.inj own
      exact .letters _
    · cases own
  transforms {name t} found := by
    have entry := Table.mem_entries_of_get? found
    simp only [patchwork, List.mem_singleton, Prod.mk.injEq] at entry
    obtain ⟨-, rfl⟩ := entry
    exact ⟨"patch", patching, rfl⟩
  rules r member := by cases member
  phonology g present := by cases present

/-- Empty letters that are asked for are neither found nor put in. -/
theorem patchwork_legible :
    patchwork.Read ∧
      (patchwork.resolve "child" (patchwork.session [.resolve "root"] {})).1 = .ok ⟨["k", "rw"]⟩ ∧
      (∀ letter ∈ ["k", "rw"], letter ≠ "") ∧ Word.text ⟨["k", "rw"]⟩ ≠ "" := by
  have found : (patchwork.resolve "child" (patchwork.session [.resolve "root"] {})).1 = .ok ⟨["k", "rw"]⟩ := by
    decide +kernel
  obtain ⟨legible, -, written⟩ := resolve_legible read_patchwork {} [.resolve "root"] "child" found
  exact ⟨read_patchwork, found, legible, fun none => absurd (written.mpr none) (by decide)⟩

end Lexicon

end Etymology
