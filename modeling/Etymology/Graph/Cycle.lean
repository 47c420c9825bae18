import Etymology.Graph.Basic
import Etymology.Graph.Open

namespace Etymology

/-- A lexis on the path of the search, with its links that are still to be followed. -/
structure Visit where
  id : String
  pending : List Etymon
deriving DecidableEq, Inhabited

/-- The part of the path from an id on, closed by that id. The path is given from its deepest
visit. -/
def closedPath (id : String) (path : List String) : List String :=
  id :: (path.takeWhile (· != id)).reverse ++ [id]

namespace Graph

/-- A lexis that the search has neither finished nor on its path. -/
def unvisited (finished path : List String) (x : Lexis) : Bool :=
  !finished.contains x.id && !path.contains x.id

/-- A lexis weighs more than all that following its links adds to the path. -/
def visitWeight (x : Lexis) : Nat :=
  x.etymons.length + 2

def searchWeight (g : Graph) (finished : List String) (path : List Visit) : Nat :=
  openWeight visitWeight (unvisited finished (path.map Visit.id)) g.nodes +
    totalWeight (fun v => v.pending.length + 1) path

/-- Goes on from a path until every lexis on it is finished or a link leads back to the path.
Gives the finished lexes, and the cycle if there is one. -/
def explore (g : Graph) (finished : List String) : List Visit → List String × Option (List String)
  | [] => (finished, none)
  | ⟨id, []⟩ :: path => g.explore (id :: finished) path
  | ⟨id, e :: pending⟩ :: path =>
    match _found : g.get? e.ancestor with
    | none => g.explore finished (⟨id, pending⟩ :: path)
    | some x =>
      if e.ancestor = id ∨ e.ancestor ∈ path.map Visit.id then
        (finished, some (closedPath e.ancestor (id :: path.map Visit.id)))
      else if e.ancestor ∈ finished then g.explore finished (⟨id, pending⟩ :: path)
      else g.explore finished (⟨x.id, x.etymons⟩ :: ⟨id, pending⟩ :: path)
termination_by path => g.searchWeight finished path
decreasing_by
  · have closes : ∀ y, unvisited (id :: finished) (path.map Visit.id) y = true →
        unvisited finished (id :: path.map Visit.id) y = true := by
      simp +contextual [unvisited]
    have := openWeight_le visitWeight closes g.nodes
    simp only [searchWeight, totalWeight, List.map_cons]
    omega
  · simp only [searchWeight, totalWeight, List.map_cons, List.length_cons]
    omega
  · simp only [searchWeight, totalWeight, List.map_cons, List.length_cons]
    omega
  · next offPath unfinished =>
    have same := id_of_get? _found
    have closes : ∀ y, unvisited finished (x.id :: id :: path.map Visit.id) y = true →
        unvisited finished (id :: path.map Visit.id) y = true := by
      simp +contextual [unvisited]
    have := openWeight_add_le visitWeight closes (mem_of_get? _found)
      (by simp only [unvisited, same]; simp_all) (by simp [unvisited])
    simp only [searchWeight, totalWeight, List.map_cons, List.length_cons]
    simp only [visitWeight] at this
    omega

def findCycleFrom (g : Graph) (finished : List String) : List Lexis → Option (List String)
  | [] => none
  | x :: rest =>
    if finished.contains x.id then g.findCycleFrom finished rest
    else match g.explore finished [⟨x.id, x.etymons⟩] with
      | (_, some cycle) => some cycle
      | (finished, none) => g.findCycleFrom finished rest

/-- The first cycle that a search from each lexis in turn meets: ids along links, the first one
repeated at the end. -/
def findCycle? (g : Graph) : Option (List String) :=
  g.findCycleFrom [] g.nodes

end Graph

end Etymology
