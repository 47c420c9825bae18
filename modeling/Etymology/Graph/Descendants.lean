import Etymology.Graph.Basic
import Etymology.Graph.Open

namespace Etymology

/-- The ids that a graph's links name. -/
def Graph.ancestors (g : Graph) : List String :=
  g.nodes.flatMap fun x => x.etymons.map Etymon.ancestor

/-- The lexes with a link to an id, each as often as it has one. -/
def Graph.children (g : Graph) (id : String) : List String :=
  g.nodes.flatMap fun x => (x.etymons.filter fun e => e.ancestor == id).map fun _ => x.id

theorem Graph.length_children (g : Graph) (id : String) : (g.children id).length = g.ancestors.count id := by
  rw [children, ancestors, List.length_flatMap, List.count_flatMap]
  refine congrArg List.sum (List.map_congr_left fun x _ => ?_)
  rw [List.length_map, Function.comp_apply, List.count, List.countP_map, List.countP_eq_length_filter]
  rfl

theorem Graph.children_eq_nil {g : Graph} {id : String} (unnamed : id ∉ g.ancestors) :
    g.children id = [] := by
  rw [← List.length_eq_zero_iff, length_children, List.count_eq_zero]
  exact unnamed

/-- The ids found, and with them everything below the ids on the stack. -/
def Graph.closure (g : Graph) (found : List String) : List String → List String
  | [] => found
  | id :: stack =>
    if found.contains id then g.closure found stack
    else g.closure (id :: found) (g.children id ++ stack)
termination_by stack =>
  openWeight (fun id => (g.children id).length + 1) (fun id => !found.contains id) g.ancestors +
    stack.length
decreasing_by
  · simp only [List.length_cons]
    omega
  · next fresh =>
    simp only [List.length_cons, List.length_append]
    have closes : ∀ a, (!(id :: found).contains a) = true → (!found.contains a) = true := by
      simp +contextual
    by_cases named : id ∈ g.ancestors
    · have := openWeight_add_le (fun id => (g.children id).length + 1) closes named
        (by simpa using fresh) (by simp)
      omega
    · have := openWeight_le (fun id => (g.children id).length + 1) closes g.ancestors
      rw [Graph.children_eq_nil named]
      simp only [List.length_nil]
      omega

/-- Each id that derives from the given one is listed once, in no particular order. -/
def Graph.descendants (g : Graph) (id : String) : Except Fault (List String) :=
  match g.get id with
  | .ok _ => .ok (g.closure [] (g.children id))
  | .error fault => .error fault

end Etymology
