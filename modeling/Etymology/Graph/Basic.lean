import Etymology.Fault
import Etymology.Lexis.Basic

namespace Etymology

/-- Lexes in the order in which they are added, each of them found by its id. No key is kept beside a lexis: the key
under which one is stored is always its id. -/
structure Graph where
  nodes : List Lexis := []
  ids_nodup : (nodes.map Lexis.id).Nodup := by exact List.nodup_nil

namespace Graph

instance : Inhabited Graph := ⟨{}⟩

def ids (g : Graph) : List String :=
  g.nodes.map Lexis.id

def size (g : Graph) : Nat :=
  g.nodes.length

def get? (g : Graph) (id : String) : Option Lexis :=
  g.nodes.find? fun x => x.id == id

def contains (g : Graph) (id : String) : Bool :=
  g.nodes.any fun x => x.id == id

theorem contains_eq_true {g : Graph} {id : String} : g.contains id = true ↔ id ∈ g.ids := by
  simp [contains, ids]

theorem contains_eq_false {g : Graph} {id : String} : g.contains id = false ↔ id ∉ g.ids := by
  rw [← contains_eq_true, Bool.not_eq_true]

theorem id_of_get? {g : Graph} {id : String} {x : Lexis} (found : g.get? id = some x) : x.id = id := by
  simpa using List.find?_some found

theorem mem_of_get? {g : Graph} {id : String} {x : Lexis} (found : g.get? id = some x) :
    x ∈ g.nodes :=
  List.mem_of_find?_eq_some found

theorem get?_eq_none {g : Graph} {id : String} : g.get? id = none ↔ id ∉ g.ids := by
  simp [get?, ids]

/-- The lexis with an id, on behalf of the one that refers to it. -/
def get (g : Graph) (id : String) (referrer : Option String := none) : Except Fault Lexis :=
  match g.get? id with
  | some x => .ok x
  | none => .error (.unknownReference id .lexis referrer)

/-- A new lexis goes to the end; an id that is present is refused. -/
def add (g : Graph) (x : Lexis) : Except Fault Graph :=
  if h : g.contains x.id = true then .error (.duplicate (.lexis x.id))
  else .ok {
    nodes := g.nodes ++ [x]
    ids_nodup := by
      rw [contains_eq_true, ids] at h
      rw [List.map_append, List.nodup_append]
      refine ⟨g.ids_nodup, by simp, ?_⟩
      intro a ha b hb
      simp only [List.map_cons, List.map_nil, List.mem_singleton] at hb
      rintro rfl
      exact h (hb ▸ ha) }

/-- Swaps every lexis for another of the same id. -/
def mapNodes (g : Graph) (f : Lexis → Lexis) (same : ∀ x, (f x).id = x.id) : Graph where
  nodes := g.nodes.map f
  ids_nodup := by
    have : Lexis.id ∘ f = Lexis.id := funext same
    rw [List.map_map, this]
    exact g.ids_nodup

/-- Puts a lexis in the place of the one with its id, if there is one. -/
def set (g : Graph) (x : Lexis) : Graph :=
  g.mapNodes (fun y => if y.id = x.id then x else y) fun y => by
    split
    · next h => exact h.symm
    · rfl

def replace (g : Graph) (x : Lexis) : Except Fault Graph :=
  match g.get x.id with
  | .ok _ => .ok (g.set x)
  | .error fault => .error fault

/-- A further link goes behind those that the lexis has. -/
def addEtymon (g : Graph) (id : String) (e : Etymon) : Except Fault (Graph × Lexis) :=
  match g.get id with
  | .ok x =>
    let linked := { x with etymons := x.etymons ++ [e] }
    .ok (g.set linked, linked)
  | .error fault => .error fault

def ofList (xs : List Lexis) : Except Fault Graph :=
  xs.foldlM add {}

def select (g : Graph) (s : Selection) : List Lexis :=
  g.nodes.filter s.admits

def byLanguage (g : Graph) (language : String) : List Lexis :=
  g.select { language := some language }

/-- Lexes whose word does not depend on an etymon. -/
def roots (g : Graph) : List Lexis :=
  g.nodes.filter fun x => x.literal?.isSome || x.etymons.isEmpty

/-- Languages in the order in which the lexes bring them. -/
def languages (g : Graph) : List String :=
  (g.nodes.map Lexis.language).eraseDups

end Graph

end Etymology
