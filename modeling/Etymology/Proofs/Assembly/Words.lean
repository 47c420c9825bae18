import Etymology.Proofs.Assembly.Flattening
import Etymology.Proofs.Assembly.Refusal

namespace Etymology

/-- The entry of a word is the lexis that it describes and behind that all that derives from it. -/
inductive Flattens : Scalar × Value → List Lexis → Prop
  | entry {key : Scalar} {id entries x items xs} :
    key.written? = some id →
    Lexis.ofEntries id entries = .ok x →
    (Entries.getD entries "derivatives").items? = some items →
    Flattened x.id 0 items xs →
    Flattens (key, .mapping entries) (x :: xs)

/-- The ids of one tree are different. -/
theorem nodup_of_mem {es : Entries} {trees : List (List Lexis)} {tree : List Lexis}
    (flat : List.Forall₂ Flattens es trees) (member : tree ∈ trees) : (tree.map Lexis.id).Nodup := by
  induction flat with
  | nil => cases member
  | cons first _ ih =>
    rcases List.mem_cons.mp member with rfl | later
    · obtain ⟨-, -, -, below⟩ := first
      exact List.nodup_cons.mpr ⟨below.parent_not_mem, below.nodup⟩
    · exact ih later

namespace Graph

theorem addWords_eq_insertEach {es : Entries} {trees : List (List Lexis)} (flat : List.Forall₂ Flattens es trees)
    (g : Graph) : addWords es g = insertEach trees.flatten g := by
  induction flat generalizing g with
  | nil => rfl
  | @cons e tree es trees first _ ih =>
    obtain @⟨key, id, entries, x, items, xs, told, read, list, below⟩ := first
    rw [List.flatten_cons, insertEach_append]
    simp only [addWords, told, addWord, addTree_eq_insertEach read list below.addDerivatives_eq g]
    cases insertEach (x :: xs) g with
    | mk h outcome => cases outcome with
      | error fault => rfl
      | ok u => exact ih h

theorem exists_flattens {es : Entries} {g : Graph} (accepted : (addWords es g).2 = .ok ()) :
    ∃ trees, List.Forall₂ Flattens es trees := by
  induction es generalizing g with
  | nil => exact ⟨[], .nil⟩
  | cons e es ih =>
    obtain ⟨key, v⟩ := e
    cases told : key.written? with
    | none =>
      simp only [addWords, told] at accepted
      cases accepted
    | some id =>
      simp only [addWords, told] at accepted
      cases added : g.addWord id v with
      | mk h outcome => cases outcome with
        | error fault =>
          rw [added] at accepted
          cases accepted
        | ok u =>
          rw [added] at accepted
          obtain ⟨trees, later⟩ := ih accepted
          cases v with
          | scalar s => cases added
          | list items => cases added
          | mapping entries =>
            have grown : g.addTree id entries (Entries.getD entries "derivatives") = (h, .ok ()) := added
            obtain ⟨x, items, xs, read, list, below⟩ := exists_tree_of_addTree (by rw [grown])
              fun h items _ _ run => exists_flattened h id 0 items run
            exact ⟨(x :: xs) :: trees, .cons (.entry told read list below) later⟩

end Graph

/-- The lexes of different trees have different ids, all of them new to the graph. -/
def Apart (g : Graph) (trees : List (List Lexis)) : Prop :=
  (trees.map fun tree => tree.map Lexis.id).Pairwise List.Disjoint ∧ ∀ tree ∈ trees, ∀ x ∈ tree, x.id ∉ g.ids

/-- Within one tree ids are different anyway. -/
theorem nodup_iff_apart {g : Graph} {es : Entries} {trees : List (List Lexis)}
    (flat : List.Forall₂ Flattens es trees) :
    (g.ids ++ trees.flatten.map Lexis.id).Nodup ↔ Apart g trees := by
  have each : ∀ ids ∈ trees.map fun tree => tree.map Lexis.id, ids.Nodup := by
    intro ids member
    obtain ⟨tree, inside, rfl⟩ := List.mem_map.mp member
    exact nodup_of_mem flat inside
  rw [List.nodup_append, List.map_flatten, List.nodup_flatten]
  constructor
  · rintro ⟨-, ⟨-, disjoint⟩, fresh⟩
    refine ⟨disjoint, fun tree member x inside taken => ?_⟩
    exact fresh x.id taken x.id (List.mem_flatten.mpr ⟨_, List.mem_map_of_mem member, List.mem_map_of_mem inside⟩) rfl
  · rintro ⟨disjoint, fresh⟩
    refine ⟨g.ids_nodup, ⟨each, disjoint⟩, ?_⟩
    rintro a taken b member rfl
    obtain ⟨ids, among, here⟩ := List.mem_flatten.mp member
    obtain ⟨tree, grown, rfl⟩ := List.mem_map.mp among
    obtain ⟨x, inside, rfl⟩ := List.mem_map.mp here
    exact fresh tree grown x inside taken

namespace Assembly

variable {a b : Assembly} {doc : Entries}

theorem checkSections_without {key : String} (known : key ∈ sections) : checkSections (doc.without key) = checkSections doc := by
  have unknown : ((doc.without key).map (·.1)).filter (fun k => !(sections.map Scalar.text).contains k) =
      (doc.map (·.1)).filter fun k => !(sections.map Scalar.text).contains k := by
    rw [Entries.without, List.filter_map, List.filter_map, List.filter_filter]
    congr 2
    funext e
    by_cases same : e.1 = .text key
    · simp [same, known]
    · simp [same]
  rw [checkSections, unknown, checkSections]

/-- The words of a document are read last, and no other section depends on them. -/
theorem addDocument_eq_andThen (a : Assembly) (doc : Entries) :
    a.addDocument doc = andThen (addWordSection (doc.getD "words")) (a.addDocument (doc.without "words")) := by
  have nothing : ∀ r, andThen (addWordSection .null) r = r := by
    rintro ⟨b, outcome⟩
    cases outcome <;> rfl
  rw [addDocument, addDocument, checkSections_without (show "words" ∈ sections by decide), doc.getD_without_self,
    nothing, doc.getD_without (show "transforms" ≠ "words" by decide),
    doc.getD_without (show "globals" ≠ "words" by decide), doc.getD_without (show "phonetics" ≠ "words" by decide)]

/-- Without words a document leaves the graph as it is. -/
theorem graph_of_addDocument_without (accepted : a.addDocument (doc.without "words") = (b, .ok ())) :
    b.graph = a.graph := by
  obtain ⟨es, read, run⟩ := (addDocument_eq_ok.mp accepted).graph
  rw [doc.getD_without_self] at read
  obtain rfl : [] = es := Option.some.inj read
  exact (Except.ok.inj run).symm

/-- The words of a document that is accepted can all be read. -/
theorem exists_flattens (accepted : (a.addDocument doc).2 = .ok ()) :
    ∃ es trees, (doc.getD "words").section? = some es ∧ List.Forall₂ Flattens es trees := by
  cases run : a.addDocument doc with
  | mk b outcome =>
    obtain rfl : outcome = .ok () := by rwa [run] at accepted
    obtain ⟨es, read, words⟩ := (addDocument_eq_ok.mp run).graph
    have added : Graph.addWords es a.graph = (b.graph, .ok ()) := Graph.addWords_eq_ok.mpr words
    obtain ⟨trees, flat⟩ := Graph.exists_flattens (by rw [added])
    exact ⟨es, trees, read, flat⟩

theorem nodes_of_addDocument {es : Entries} {trees : List (List Lexis)}
    (read : (doc.getD "words").section? = some es) (flat : List.Forall₂ Flattens es trees)
    (accepted : a.addDocument doc = (b, .ok ())) : b.graph.nodes = a.graph.nodes ++ trees.flatten := by
  obtain ⟨es', read', words⟩ := (addDocument_eq_ok.mp accepted).graph
  obtain rfl : es = es' := Option.some.inj (read.symm.trans read')
  have added : a.graph.insertEach trees.flatten = (b.graph, .ok ()) :=
    (Graph.addWords_eq_insertEach flat _).symm.trans (Graph.addWords_eq_ok.mpr words)
  rcases Graph.insertEach_eq trees.flatten a.graph with ⟨-, h, run, nodes⟩ | ⟨-, h, kind, run⟩
  · cases added.symm.trans run
    exact nodes
  · cases added.symm.trans run

/-- A document comes out as the other sections do if these are refused, and as the adding of its words does
if they are accepted. -/
theorem outcome_of_flattens {es : Entries} {trees : List (List Lexis)}
    (read : (doc.getD "words").section? = some es) (flat : List.Forall₂ Flattens es trees) :
    (a.addDocument doc).2 = match (a.addDocument (doc.without "words")).2 with
      | .ok () => (a.graph.insertEach trees.flatten).2
      | .error fault => .error fault := by
  rw [addDocument_eq_andThen]
  cases others : a.addDocument (doc.without "words") with
  | mk c outcome => cases outcome with
    | error fault => rfl
    | ok u =>
      show (addWordSection (doc.getD "words") c).2 = _
      rw [addWordSection_eq, read, graph_of_addDocument_without others]
      exact congrArg Prod.snd (Graph.addWords_eq_insertEach flat a.graph)

/-- A document whose words are accepted has its entries laid out flat behind what was there: each entry in
turn, and behind a lexis, to any depth, what derives from it, linked to it alone. Where all entries can be read,
the ids of one of them never clash, and the document is refused for a duplicate exactly if its other sections
are accepted and two of its entries clash, or one of them with what was there. -/
theorem addDocument_flattens (a : Assembly) (doc : Entries) :
    ((a.addDocument doc).2 = .ok () →
      ∃ es trees, (doc.getD "words").section? = some es ∧ List.Forall₂ Flattens es trees) ∧
    ∀ es trees, (doc.getD "words").section? = some es → List.Forall₂ Flattens es trees →
      (∀ b, a.addDocument doc = (b, .ok ()) → b.graph.nodes = a.graph.nodes ++ trees.flatten) ∧
      (∀ tree ∈ trees, (tree.map Lexis.id).Nodup) ∧
      ((a.addDocument doc).2 = .ok () ↔ (a.addDocument (doc.without "words")).2 = .ok () ∧ Apart a.graph trees) ∧
      ((∃ kind, (a.addDocument doc).2 = .error (.duplicate kind)) ↔
        (a.addDocument (doc.without "words")).2 = .ok () ∧ ¬ Apart a.graph trees) := by
  refine ⟨exists_flattens, fun es trees read flat => ⟨fun b => nodes_of_addDocument read flat,
    fun tree => nodup_of_mem flat, ?_⟩⟩
  have others := a.addDocument_without_unrepeated doc
  rw [outcome_of_flattens read flat, ← nodup_iff_apart flat]
  generalize (a.addDocument (doc.without "words")).2 = outcome at others
  cases outcome with
  | error fault =>
    refine ⟨⟨nofun, fun h => nomatch h.1⟩, ?_, fun h => nomatch h.1⟩
    rintro ⟨kind, same⟩
    cases others _ same
  | ok u =>
    rcases Graph.insertEach_eq trees.flatten a.graph with ⟨distinct, h, run, -⟩ | ⟨clash, h, kind, run⟩
    · simp only [run, distinct]
      simp
    · simp only [run, clash]
      simp

/-- A word with a derivative, which names an etymon of its own and has a derivative in turn. -/
def waters : Entries :=
  [(.text "aqua", .mapping [
    (.text "language", .text "Latin"),
    (.text "derivatives", .list [.mapping [
      (.text "lexis", .mapping [
        (.text "etymology", .list [.text "ignored"]),
        (.text "derivatives", .list [.mapping [(.text "transforms", .text "of-water")]])]),
      (.text "transforms", .list [.text "vowel-loss"])]])])]

def flatWaters : List Lexis :=
  [{ id := "aqua", language := "Latin" },
    { id := "aqua-autoderive-0", etymons := [⟨"aqua", ["vowel-loss"], 0⟩] },
    { id := "aqua-autoderive-0-autoderive-0", etymons := [⟨"aqua-autoderive-0", ["of-water"], 0⟩] }]

theorem waters_flat : List.Forall₂ Flattens waters [flatWaters] := by
  have first : DerivativeOf "aqua" 0
      [(.text "lexis", .mapping [
        (.text "etymology", .list [.text "ignored"]),
        (.text "derivatives", .list [.mapping [(.text "transforms", .text "of-water")]])]),
        (.text "transforms", .list [.text "vowel-loss"])]
      [(.text "etymology", .list [.text "ignored"]),
        (.text "derivatives", .list [.mapping [(.text "transforms", .text "of-water")]])]
      { id := "aqua-autoderive-0", etymons := [⟨"aqua", ["vowel-loss"], 0⟩] } :=
    ⟨rfl, by decide, _, _, rfl, rfl, rfl⟩
  have second : DerivativeOf "aqua-autoderive-0" 0 [(.text "transforms", .text "of-water")] []
      { id := "aqua-autoderive-0-autoderive-0", etymons := [⟨"aqua-autoderive-0", ["of-water"], 0⟩] } :=
    ⟨rfl, by decide, _, _, rfl, rfl, rfl⟩
  have inner := Flattened.cons second rfl .nil .nil
  have flat := Flattened.cons first rfl inner .nil
  exact .cons (.entry rfl rfl rfl flat) .nil

/-- A document is accepted once, and refused as a duplicate the second time. -/
theorem waters_flattens :
    ∃ b, ({} : Assembly).addDocument [(.text "words", .mapping waters)] = (b, .ok ()) ∧ b.graph.nodes = flatWaters ∧
      ∃ kind, (b.addDocument [(.text "words", .mapping waters)]).2 = .error (.duplicate kind) := by
  have read : (Entries.getD [(.text "words", .mapping waters)] "words").section? = some waters := rfl
  have apart : Apart ({} : Graph) [flatWaters] :=
    ⟨List.pairwise_singleton _ _, fun _ _ _ _ => List.not_mem_nil⟩
  obtain ⟨nodes, -, accepted, -⟩ := (addDocument_flattens {} _).2 _ _ read waters_flat
  cases run : ({} : Assembly).addDocument [(.text "words", .mapping waters)] with
  | mk b outcome =>
    obtain rfl : outcome = .ok () := by simpa [run] using accepted.mpr ⟨rfl, apart⟩
    refine ⟨b, rfl, nodes b run, ?_⟩
    refine ((addDocument_flattens b _).2 _ _ read waters_flat).2.2.2.mpr ⟨rfl, fun apart => ?_⟩
    refine apart.2 flatWaters (List.mem_singleton_self _) _ List.mem_cons_self ?_
    rw [Graph.ids, nodes b run]
    decide

end Assembly

end Etymology
