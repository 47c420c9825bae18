import Etymology.Proofs.Graph.Change
import Etymology.Proofs.Lexicon.Session
import Etymology.Proofs.Lexis.Order
import Etymology.Proofs.Predicate.Names

namespace Etymology

namespace Lexis

@[simp] theorem id_ordered (x : Lexis) : x.ordered.id = x.id := rfl

@[simp] theorem literal?_ordered (x : Lexis) : x.ordered.literal? = x.literal? := rfl

@[simp] theorem withWord_ordered (x : Lexis) (w : Word) : x.ordered.withWord w = (x.withWord w).ordered := rfl

@[simp] theorem fieldValue_ordered (x : Lexis) (f : Field) : x.ordered.fieldValue f = x.fieldValue f := by
  cases f <;> rfl

@[simp] theorem isEmpty_etymons_ordered (x : Lexis) : x.ordered.etymons.isEmpty = x.etymons.isEmpty :=
  x.orderedEtymons_perm.isEmpty_eq

end Lexis

@[simp] theorem Predicate.holds_ordered (p : Predicate) (x : Lexis) : p.holds x.ordered = p.holds x :=
  holds_congr p fun f _ => Lexis.agrees_of_fieldValue_eq (x.fieldValue_ordered f)

@[simp] theorem Predicate.holdsOpt_ordered (p : Option Predicate) (x : Lexis) :
    holdsOpt p x.ordered = holdsOpt p x := by
  cases p with
  | none => rfl
  | some p => exact p.holds_ordered x

@[simp] theorem Primitive.apply_ordered (p : Primitive) (w : Word) (x : Lexis) (scripts : Option ScriptRunner) :
    p.apply w x.ordered scripts = p.apply w x scripts := by
  cases p <;> rfl

@[simp] theorem runSteps_ordered (x : Lexis) (scripts : Option ScriptRunner) (steps : List Step) (w : Word) :
    runSteps x.ordered scripts steps w = runSteps x scripts steps w := by
  induction steps generalizing w with
  | nil => rfl
  | cons s steps ih => simp only [runSteps, Predicate.holdsOpt_ordered, Primitive.apply_ordered, ih]

theorem EtymonCondition.holds_ordered (c : EtymonCondition) (etymons : List Lexis) :
    c.holds (etymons.map Lexis.ordered) = c.holds etymons := by
  cases etymons with
  | nil => rfl
  | cons e es => cases q : c.quantifier <;> simp [holds, q, Function.comp_def]

theorem GlobalRule.appliesTo_ordered (r : GlobalRule) (x : Lexis) (etymons : List Lexis) :
    r.appliesTo x.ordered (etymons.map Lexis.ordered) = r.appliesTo x etymons := by
  simp only [appliesTo, Predicate.holdsOpt_ordered, EtymonCondition.holds_ordered]

theorem GlobalRule.applyAll_ordered (x : Lexis) (etymons : List Lexis) (scripts : Option ScriptRunner)
    (rules : List GlobalRule) (w : Word) :
    applyAll x.ordered (etymons.map Lexis.ordered) scripts rules w = applyAll x etymons scripts rules w := by
  induction rules generalizing w with
  | nil => rfl
  | cons r rules ih => simp only [applyAll, appliesTo_ordered, runSteps_ordered, ih]

/-- What a walk has at hand, with all etymons declared in the order in which they are joined. -/
def Contribution.ordered (c : Contribution) : Contribution :=
  { c with source := c.source.ordered }

namespace Frame

def ordered (f : Frame) : Frame :=
  { f with lexis := f.lexis.ordered, absorbed := f.absorbed.map Contribution.ordered }

@[simp] theorem lexis_ordered (f : Frame) : f.ordered.lexis = f.lexis.ordered := rfl

@[simp] theorem remaining_ordered (f : Frame) : f.ordered.remaining = f.remaining := rfl

@[simp] theorem contributions_ordered (f : Frame) : f.ordered.contributions = f.contributions := by
  rw [contributions, ordered, List.map_map]
  rfl

@[simp] theorem sources_ordered (f : Frame) : f.ordered.sources = f.sources.map Lexis.ordered := by
  rw [sources, ordered, sources, List.map_map, List.map_map]
  rfl

end Frame

def Entry.ordered : Entry → Entry
  | .known w pass => .known w pass
  | .opened frame pass => .opened frame.ordered pass
  | .failed fault pass => .failed fault pass

def Move.ordered : Move → Move
  | .absorbed frame pass => .absorbed frame.ordered pass
  | .opened frame pass => .opened frame.ordered pass
  | .finished w pass => .finished w pass
  | .failed fault pass => .failed fault pass

namespace Lexicon

/-- The lexicon with all etymons declared in the order in which they are joined. -/
def ordered (l : Lexicon) : Lexicon :=
  { l with graph := l.graph.mapNodes Lexis.ordered fun _ => rfl }

section Ordered

variable (l : Lexicon)

theorem get?_ordered (id : String) : l.ordered.graph.get? id = (l.graph.get? id).map Lexis.ordered :=
  Graph.get?_of_map (f := Lexis.ordered) (fun _ => rfl) rfl id

theorem contribution_ordered (id : String) (link : Etymon) (x : Lexis) (w : Word) :
    l.ordered.contribution id link x.ordered w = l.contribution id link x w := by
  have looked : l.ordered.transformsOf id link.transforms = l.transformsOf id link.transforms := by
    rw [← mapM_transformNamed, ← mapM_transformNamed]
    rfl
  simp only [contribution, looked, runSteps_ordered]
  rfl

theorem joined_ordered (x : Lexis) (sources : List Lexis) (words : List Word) :
    l.ordered.joined x.ordered (sources.map Lexis.ordered) words = l.joined x sources words :=
  GlobalRule.applyAll_ordered (x.withWord _) sources l.scripts l.rules _

/-- A lexis is entered alike, since its links are followed in the order in which they are joined. -/
theorem enter_ordered (x : Lexis) (p : Pass) : l.ordered.enter x.ordered p = (l.enter x p).ordered := by
  have made : l.ordered.generated x.ordered p.picks = l.generated x p.picks := rfl
  simp only [enter, made, Lexis.id_ordered, Lexis.literal?_ordered, Lexis.isEmpty_etymons_ordered,
    Lexis.orderedEtymons_ordered]
  split
  · rfl
  · split
    · rfl
    · split
      · rfl
      · split
        · split <;> rfl
        · rfl

theorem advance_ordered (f : Frame) (p : Pass) : l.ordered.advance f.ordered p = (l.advance f p).ordered := by
  cases pending : f.remaining with
  | nil =>
    simp only [advance, Frame.remaining_ordered, pending, Frame.lexis_ordered, Frame.sources_ordered,
      Frame.contributions_ordered, joined_ordered]
    cases l.joined f.lexis f.sources f.contributions <;> rfl
  | cons link links =>
    cases found : l.graph.get? link.ancestor with
    | none =>
      simp only [advance, Frame.remaining_ordered, pending, get?_ordered, found, Option.map_none]
      rfl
    | some x =>
      simp only [advance, Frame.remaining_ordered, pending, get?_ordered, found, Option.map_some, enter_ordered]
      cases l.enter x p with
      | opened inner q => rfl
      | failed fault q => rfl
      | known w q =>
        simp only [Entry.ordered, Frame.lexis_ordered, Lexis.id_ordered, Lexis.withWord_ordered,
          contribution_ordered]
        cases l.contribution f.lexis.id link (x.withWord w) w with
        | error fault => rfl
        | ok c => simp [Move.ordered, Frame.ordered, Contribution.ordered]

/-- Ordered or not, a lexicon takes the same turns. -/
theorem run_ordered (top : Frame) (below : List Frame) (p : Pass) :
    l.ordered.run top.ordered (below.map Frame.ordered) p = l.run top below p := by
  fun_induction l.run top below p with
  | case1 top below p top' q move ih =>
    rw [run, advance_ordered, move]
    exact ih
  | case2 top below p inner q move ih =>
    rw [run, advance_ordered, move]
    exact ih
  | case3 top p w q move =>
    rw [List.map_nil, run, advance_ordered, move]
    rfl
  | case4 top p w q move next below ih =>
    rw [List.map_cons, run, advance_ordered, move]
    exact ih
  | case5 top below p fault q move =>
    have same : ((top :: below).map Frame.ordered).map (fun f => f.lexis.id) =
        (top :: below).map fun f => f.lexis.id := by
      rw [List.map_map]
      rfl
    rw [run, advance_ordered, move, ← same]
    rfl

theorem resolve_ordered (id : String) (p : Pass) : l.ordered.resolve id p = l.resolve id p := by
  unfold resolve
  split
  · rfl
  · cases found : l.graph.get? id with
    | none => simp only [Graph.get, get?_ordered, found, Option.map_none]
    | some x =>
      simp only [Graph.get, get?_ordered, found, Option.map_some, enter_ordered]
      cases l.enter x p with
      | known w q => rfl
      | opened f q => exact l.run_ordered f [] q
      | failed fault q => rfl

end Ordered

/-- The outcomes of resolving some ids in turn, whether they fail or not, each with the choices made by then. -/
def outcomes (l : Lexicon) : List String → Pass → List (Except Fault Word × Picks)
  | [], _ => []
  | id :: ids, pass => match l.resolve id pass with
    | (outcome, pass) => (outcome, pass.picks) :: l.outcomes ids pass

section Reordered

variable {l : Lexicon} {g : Graph}

/-- Graphs that are alike once ordered resolve alike, from any pass. -/
theorem resolve_of_ordered_eq (alike : g.nodes.map Lexis.ordered = l.graph.nodes.map Lexis.ordered) (id : String)
    (p : Pass) : resolve { l with graph := g } id p = l.resolve id p := by
  have same : ordered { l with graph := g } = l.ordered := by
    simp only [ordered, Graph.mapNodes, alike]
  rw [← resolve_ordered, same, resolve_ordered]

theorem outcomes_of_ordered_eq (alike : g.nodes.map Lexis.ordered = l.graph.nodes.map Lexis.ordered)
    (ids : List String) (p : Pass) : outcomes { l with graph := g } ids p = l.outcomes ids p := by
  induction ids generalizing p with
  | nil => rfl
  | cons id ids ih => simp only [outcomes, resolve_of_ordered_eq alike, ih]

/-- A lexis in place of one that is ordered alike leaves the ordered graph as it is. -/
theorem ordered_set {x y : Lexis} (member : x ∈ g.nodes) (same : y.ordered = x.ordered) :
    (g.set y).nodes.map Lexis.ordered = g.nodes.map Lexis.ordered := by
  have ids : y.ordered.id = x.ordered.id := congrArg Lexis.id same
  refine List.map_map.trans (List.map_congr_left fun z inside => ?_)
  rw [Function.comp_apply]
  split
  · next here =>
    obtain rfl : z = x := List.inj_on_of_nodup_map g.ids_nodup inside member (here.trans ids)
    exact same
  · rfl

end Reordered

end Lexicon

end Etymology
