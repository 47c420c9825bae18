import Etymology.Proofs.Graph.Acyclic
import Etymology.Proofs.Lexicon.Outcome
import Etymology.Proofs.Referential

namespace Etymology.Lexicon

/-- Whatever the first lexicon knows the second knows alike, and it applies the same rules and scripts. -/
structure Within (l m : Lexicon) : Prop where
  graph : ∀ {id x}, l.graph.get? id = some x → m.graph.get? id = some x
  transforms : ∀ {name t}, l.transforms.get? name = some t → m.transforms.get? name = some t
  rules : m.rules = l.rules
  scripts : m.scripts = l.scripts

section Within

variable {l m : Lexicon}

theorem Within.transformsOf (within : l.Within m) {id : String} {names : List String}
    (named : ∀ name ∈ names, l.transforms.contains name = true) :
    m.transformsOf id names = l.transformsOf id names := by
  induction names with
  | nil => rfl
  | cons name names ih =>
    obtain ⟨here, later⟩ := List.forall_mem_cons.mp named
    obtain ⟨t, found⟩ := Table.exists_get?_of_contains here
    simp only [Lexicon.transformsOf, found, within.transforms found, ih later]

/-- Names that are all known stand for transforms. -/
theorem transformsOf_of_mapM {id : String} {names : List String} {ts : List Transform}
    (named : names.mapM l.transforms.get? = some ts) : l.transformsOf id names = .ok ts := by
  induction names generalizing ts with
  | nil =>
    cases named
    rfl
  | cons name names ih =>
    rw [List.mapM_cons] at named
    obtain ⟨t, found, named⟩ := Option.bind_eq_some_iff.mp named
    obtain ⟨rest, later, named⟩ := Option.bind_eq_some_iff.mp named
    cases named
    simp only [Lexicon.transformsOf, found, ih later]

theorem Within.pipeline (within : l.Within m) {id : String} {link : Etymon} {source : Lexis} {w : Word}
    (named : ∀ name ∈ link.transforms, l.transforms.contains name = true) :
    m.pipeline id link source w = l.pipeline id link source w := by
  simp only [Lexicon.pipeline, mapM_transformNamed, within.transformsOf named, within.scripts]

theorem Within.agglutinated (within : l.Within m) (x : Lexis) (cs : List Contribution) :
    m.agglutinated x cs = l.agglutinated x cs := by
  simp only [Lexicon.agglutinated, within.rules, within.scripts]

theorem Within.absorb (within : l.Within m) {word word' : String → Except Fault Word} {id : String}
    {links : List Etymon} (closed : ∀ e ∈ links, e.ancestor ∈ l.graph.ids)
    (named : ∀ e ∈ links, ∀ name ∈ e.transforms, l.transforms.contains name = true)
    (same : ∀ e ∈ links, word' e.ancestor = word e.ancestor) :
    m.absorb word' id links = l.absorb word id links := by
  induction links with
  | nil => rfl
  | cons link links ih =>
    obtain ⟨inside, closedLater⟩ := List.forall_mem_cons.mp closed
    obtain ⟨namedHere, namedLater⟩ := List.forall_mem_cons.mp named
    obtain ⟨here, later⟩ := List.forall_mem_cons.mp same
    obtain ⟨y, found⟩ := Graph.exists_get?_of_mem_ids inside
    simp only [Lexicon.absorb, found, within.graph found, here, within.pipeline namedHere,
      ih closedLater namedLater later]

theorem Within.derive (within : l.Within m) (sound : l.graph.Referential l.transforms)
    {word word' : String → Except Fault Word} {x : Lexis} (member : x ∈ l.graph.nodes)
    (same : ∀ e ∈ x.etymons, word' e.ancestor = word e.ancestor) : m.derive word' x = l.derive word x := by
  have contributions : m.absorb word' x.id x.orderedEtymons = l.absorb word x.id x.orderedEtymons :=
    within.absorb (fun e link => sound.closed x member e (mem_orderedEtymons.mp link))
      (fun e link => sound.named x member e (mem_orderedEtymons.mp link))
      fun e link => same e (mem_orderedEtymons.mp link)
  simp only [Lexicon.derive, contributions, within.agglutinated]

/-- The derivation of a lexis that was there uses only what was there. -/
theorem Derives.within (within : l.Within m) (sound : l.graph.Referential l.transforms) {id : String}
    {r : Except Fault Word} (derives : l.Derives id r) (present : id ∈ l.graph.ids) : m.Derives id r := by
  induction derives with
  | absent unknown => exact absurd present (Graph.get?_eq_none.mp unknown)
  | literal found word => exact .literal (within.graph found) word
  | keyed found bare unlinked key => exact .keyed (within.graph found) bare unlinked key
  | underspecified found bare unlinked key => exact .underspecified (within.graph found) bare unlinked key
  | @derived id x word found bare linked ancestors ih =>
    have member := Graph.mem_of_get? found
    rw [← within.derive sound member fun _ _ => rfl]
    exact .derived word (within.graph found) bare linked fun e link =>
      ih e link (sound.closed x member e link)

end Within

section Settled

variable {l m : Lexicon}

/-- On a pass of its own, resolving gives what the recursion over the derivation gives. -/
theorem derives_resolve (settled : ∀ x ∈ l.graph.nodes, x.isGenerated = false)
    (sound : l.graph.Referential l.transforms) (picks : Picks) (id : String) :
    l.Derives id (l.resolve id { picks := picks }).1 := by
  have free := Graph.cycleFreeFrom_of_findCycle?_eq_none (Graph.findCycle?_eq_none_iff.mpr sound.acyclic) id
  rw [(l.atRest_fresh picks).resolve_eq_meaning (settles_of_settled settled _)]
  exact derives_meaning free fun _ _ _ p member => by cases member

/-- The recursion decides what resolving gives. -/
theorem resolve_of_derives (settled : ∀ x ∈ l.graph.nodes, x.isGenerated = false)
    (sound : l.graph.Referential l.transforms) {id : String} {r : Except Fault Word}
    (derives : l.Derives id r) (picks : Picks) : (l.resolve id { picks := picks }).1 = r :=
  (derives_resolve settled sound picks id).unique derives

/-- A lexis with one link takes what the link makes of the word of its ancestor, under the global rules. -/
theorem derive_single {word : String → Except Fault Word} {x y : Lexis} {link : Etymon} {w : Word}
    (single : x.etymons = [link]) (found : l.graph.get? link.ancestor = some y)
    (known : word link.ancestor = .ok w) :
    l.derive word x = l.pipeline x.id link (y.withWord w) w >>= fun c =>
      GlobalRule.runAll (x.withWord c) [y.withWord w] l.scripts l.rules c := by
  have ordered : x.orderedEtymons = [link] := by
    rw [Lexis.orderedEtymons, single, List.mergeSort_singleton]
  simp only [derive, ordered, absorb, found, known]
  cases run : l.pipeline x.id link (y.withWord w) w with
  | error fault => rfl
  | ok c => simp [agglutinated, Bind.bind, Except.bind]

end Settled

end Etymology.Lexicon
