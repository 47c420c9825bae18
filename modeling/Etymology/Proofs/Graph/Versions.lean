import Etymology.Proofs.Graph.Change
import Etymology.Proofs.Graph.Growth
import Mathlib.Data.List.Forall2

namespace Etymology

namespace Graph

/-- What one graph may be asked. -/
inductive Request where
  | add (x : Lexis)
  | addEtymon (id : String) (e : Etymon)
  | replace (x : Lexis)
  | get (id : String) (referrer : Option String)

/-- The graph as a request leaves it, and the lexis that is handed out. -/
def ask (g : Graph) : Request → Except Fault (Graph × Option Lexis)
  | .add x => (g.add x).map fun h => (h, some x)
  | .addEtymon id e => (g.addEtymon id e).map fun (h, y) => (h, some y)
  | .replace x => (g.replace x).map fun h => (h, none)
  | .get id referrer => (g.get id referrer).map fun x => (g, some x)

/-- The requests that a graph refuses, and with what fault: to add an id that is there, and to change or find
one that is not. -/
inductive Refuses (g : Graph) : Request → Fault → Prop
  | add {x : Lexis} (taken : x.id ∈ g.ids) : Refuses g (.add x) (.duplicate (.lexis x.id))
  | addEtymon {id : String} {e : Etymon} (missing : id ∉ g.ids) :
    Refuses g (.addEtymon id e) (.unknownReference id .lexis none)
  | replace {x : Lexis} (missing : x.id ∉ g.ids) :
    Refuses g (.replace x) (.unknownReference x.id .lexis none)
  | get {id : String} {referrer : Option String} (missing : id ∉ g.ids) :
    Refuses g (.get id referrer) (.unknownReference id .lexis referrer)

/-- A version of a lexis that came into a graph, as the first of its id or in the place of another. -/
inductive Write where
  | inserted (x : Lexis)
  | changed (x : Lexis)

def Write.version : Write → Lexis
  | .inserted x => x
  | .changed x => x

/-- The id that is new with a write. -/
def Write.newId? : Write → Option String
  | .inserted x => some x.id
  | .changed _ => none

/-- The last version of an id that a log tells of. -/
def latest? (log : List Write) (id : String) : Option Lexis :=
  ((log.map Write.version).filter fun x => x.id == id).getLast?

/-- The ids that were inserted, in the order of their insertion. -/
def insertedIds (log : List Write) : List String :=
  log.filterMap Write.newId?

/-- What a graph would do of which nothing is known but the log. -/
def askLog (log : List Write) : Request → Except Fault (List Write × Option Lexis)
  | .add x =>
    match latest? log x.id with
    | some _ => .error (.duplicate (.lexis x.id))
    | none => .ok (log ++ [.inserted x], some x)
  | .addEtymon id e =>
    match latest? log id with
    | some x =>
      let linked := { x with etymons := x.etymons ++ [e] }
      .ok (log ++ [.changed linked], some linked)
    | none => .error (.unknownReference id .lexis none)
  | .replace x =>
    match latest? log x.id with
    | some _ => .ok (log ++ [.changed x], none)
    | none => .error (.unknownReference x.id .lexis none)
  | .get id referrer =>
    match latest? log id with
    | some x => .ok (log, some x)
    | none => .error (.unknownReference id .lexis referrer)

/-- The graph is what its log tells: every id in the order of insertion with its last version. -/
structure Tells (log : List Write) (g : Graph) : Prop where
  order : g.ids = insertedIds log
  versions : ∀ id, g.get? id = latest? log id

section Tells

variable {g h : Graph} {log : List Write} {w : Write} {x y : Lexis} {id : String}

theorem latest?_concat :
    latest? (log ++ [w]) id = if w.version.id = id then some w.version else latest? log id := by
  unfold latest?
  rw [List.map_append, List.filter_append, List.map_singleton]
  by_cases same : w.version.id = id
  · have kept : [w.version].filter (fun x => x.id == id) = [w.version] :=
      List.filter_cons_of_pos (beq_iff_eq.mpr same)
    rw [kept, List.getLast?_concat, if_pos same]
  · have dropped : [w.version].filter (fun x => x.id == id) = [] :=
      List.filter_cons_of_neg (by rwa [beq_iff_eq])
    rw [dropped, List.append_nil, if_neg same]

theorem insertedIds_append (log more : List Write) :
    insertedIds (log ++ more) = insertedIds log ++ insertedIds more :=
  List.filterMap_append

/-- To the log a graph that is there is a row of insertions. -/
theorem tells_nodes (g : Graph) : Tells (g.nodes.map .inserted) g where
  order := by
    rw [insertedIds, List.filterMap_map]
    exact (congrFun List.filterMap_eq_map g.nodes).symm
  versions := by
    intro id
    have versions : (g.nodes.map Write.inserted).map Write.version = g.nodes := by
      rw [List.map_map]
      exact List.map_id g.nodes
    rw [latest?, versions]
    cases last : (g.nodes.filter fun x => x.id == id).getLast? with
    | none =>
      rw [List.getLast?_eq_none_iff, List.filter_eq_nil_iff] at last
      rw [get?_eq_none]
      intro present
      obtain ⟨x, member, same⟩ := List.mem_map.mp present
      exact last x member (beq_iff_eq.mpr same)
    | some x =>
      obtain ⟨member, same⟩ := List.mem_filter.mp (List.mem_of_getLast? last)
      exact get?_eq_some.mpr ⟨member, beq_iff_eq.mp same⟩

theorem Tells.added (tells : Tells log g) (fresh : x.id ∉ g.ids) (nodes : h.nodes = g.nodes ++ [x]) :
    Tells (log ++ [.inserted x]) h where
  order := by
    rw [insertedIds_append, ← tells.order, ids, nodes, List.map_append]
    rfl
  versions := by
    intro id
    rw [latest?_concat, ← tells.versions, get?, nodes, List.find?_append, ← get?]
    change _ = if x.id = id then some x else g.get? id
    by_cases same : x.id = id
    · subst same
      have found : [x].find? (fun y => y.id == x.id) = some x := List.find?_cons_of_pos (beq_self_eq_true x.id)
      rw [if_pos rfl, get?_eq_none.mpr fresh, Option.none_or, found]
    · have missed : [x].find? (fun y => y.id == id) = none := List.find?_cons_of_neg (by rwa [beq_iff_eq])
      rw [if_neg same, missed, Option.or_none]

theorem Tells.changed (tells : Tells log g) (present : y.id ∈ g.ids) :
    Tells (log ++ [.changed y]) (g.set y) where
  order := by
    rw [insertedIds_append, ← tells.order, ids_set]
    exact (List.append_nil g.ids).symm
  versions := by
    intro id
    rw [latest?_concat, ← tells.versions]
    change _ = if y.id = id then some y else g.get? id
    by_cases same : y.id = id
    · subst same
      rw [if_pos rfl, get?_set_self present]
    · rw [if_neg same, (changedAt_set present).elsewhere id (Ne.symm same)]

/-- Iteration brings the last version of every id, where that id was inserted. -/
theorem Tells.nodes (tells : Tells log g) : g.nodes = (insertedIds log).filterMap (latest? log) := by
  have versions : latest? log = g.get? := funext fun id => (tells.versions id).symm
  rw [← tells.order, versions, ids, List.filterMap_map]
  have found : ∀ x ∈ g.nodes, (g.get? ∘ Lexis.id) x = some x := fun x member => get?_of_mem member
  rw [List.filterMap_congr found, List.filterMap_some]

end Tells

section Requests

variable {g : Graph} {log : List Write} {r : Request} {fault : Fault}

theorem ask_of_refuses (refuses : g.Refuses r fault) : g.ask r = .error fault := by
  cases refuses with
  | add taken => rw [ask, add, dif_pos (contains_eq_true.mpr taken)]; rfl
  | addEtymon missing => rw [ask, addEtymon, get, get?_eq_none.mpr missing]; rfl
  | replace missing => rw [ask, replace, get, get?_eq_none.mpr missing]; rfl
  | get missing => rw [ask, get, get?_eq_none.mpr missing]; rfl

/-- A request is refused to graph and log alike, or answered alike and leaves a graph of which the log tells. -/
theorem Tells.ask (tells : Tells log g) (r : Request) :
    (∃ fault, g.Refuses r fault ∧ askLog log r = .error fault) ∨
      ∃ h later answer, g.ask r = .ok (h, answer) ∧ askLog log r = .ok (later, answer) ∧ Tells later h := by
  cases r with
  | add x =>
    cases found : g.get? x.id with
    | some y => exact Or.inl ⟨_, .add (mem_ids_of_get? found), by rw [askLog, ← tells.versions, found]⟩
    | none =>
      have fresh := get?_eq_none.mp found
      obtain ⟨h, added, nodes⟩ := add_eq fresh
      refine Or.inr ⟨h, _, some x, ?_, by rw [askLog, ← tells.versions, found], tells.added fresh nodes⟩
      rw [Graph.ask, added, Except.map]
  | addEtymon id e =>
    cases found : g.get? id with
    | none => exact Or.inl ⟨_, .addEtymon (get?_eq_none.mp found), by rw [askLog, ← tells.versions, found]⟩
    | some x =>
      have present : x.id ∈ g.ids := id_of_get? found ▸ mem_ids_of_get? found
      let linked := { x with etymons := x.etymons ++ [e] }
      have later : Tells (log ++ [.changed linked]) (g.set linked) := tells.changed present
      refine Or.inr ⟨_, _, some linked, ?_, by rw [askLog, ← tells.versions, found], later⟩
      rw [Graph.ask, Graph.addEtymon, Graph.get, found, Except.map]
  | replace x =>
    cases found : g.get? x.id with
    | none => exact Or.inl ⟨_, .replace (get?_eq_none.mp found), by rw [askLog, ← tells.versions, found]⟩
    | some y =>
      have later := tells.changed (mem_ids_of_get? found)
      refine Or.inr ⟨_, _, none, ?_, by rw [askLog, ← tells.versions, found], later⟩
      rw [Graph.ask, Graph.replace, Graph.get, found, Except.map]
  | get id referrer =>
    cases found : g.get? id with
    | none => exact Or.inl ⟨_, .get (get?_eq_none.mp found), by rw [askLog, ← tells.versions, found]⟩
    | some x =>
      refine Or.inr ⟨g, log, some x, ?_, by rw [askLog, ← tells.versions, found], tells⟩
      rw [Graph.ask, Graph.get, found, Except.map]

theorem ask_eq_error_iff : g.ask r = .error fault ↔ g.Refuses r fault := by
  constructor
  · intro failed
    rcases (tells_nodes g).ask r with ⟨told, refuses, -⟩ | ⟨h, later, answer, answered, -⟩
    · rw [ask_of_refuses refuses, Except.error.injEq] at failed
      exact failed ▸ refuses
    · rw [answered] at failed
      contradiction
  · exact ask_of_refuses

end Requests

/-- A call on one of several graphs, which go by their numbers. -/
inductive Call where
  | ask (k : Nat) (r : Request)
  | copy (k : Nat)

section Calls

variable {σ : Type} (ask : σ → Request → Except Fault (σ × Option Lexis))

/-- What a call makes of the stores, be they graphs or logs, and its answer, if it is to one of them. A copy
goes behind all others. -/
def Call.on (stores : List σ) : Call → List σ × Option (Except Fault (Option Lexis))
  | .ask k r =>
    match stores[k]? with
    | none => (stores, none)
    | some s =>
      match ask s r with
      | .error fault => (stores, some (.error fault))
      | .ok (s', answer) => (stores.set k s', some (.ok answer))
  | .copy k =>
    match stores[k]? with
    | none => (stores, none)
    | some s => (stores ++ [s], some (.ok none))

/-- One call after the other, with all answers. -/
def run : List Call → List σ → List σ × List (Option (Except Fault (Option Lexis)))
  | [], stores => (stores, [])
  | call :: calls, stores =>
    let (next, answer) := call.on ask stores
    let (last, answers) := run calls next
    (last, answer :: answers)

variable {ask} {stores : List σ} {fault : Fault}

theorem Call.on_eq_error_iff {call : Call} :
    (call.on ask stores).2 = some (.error fault) ↔
      ∃ k r s, call = .ask k r ∧ stores[k]? = some s ∧ ask s r = .error fault := by
  constructor
  · intro failed
    cases call with
    | ask k r =>
      cases here : stores[k]? with
      | none => simp [Call.on, here] at failed
      | some s =>
        refine ⟨k, r, s, rfl, here, ?_⟩
        cases asked : ask s r with
        | error told => simpa [Call.on, here, asked] using failed
        | ok after => simp [Call.on, here, asked] at failed
    | copy k =>
      cases here : stores[k]? with
      | none => simp [Call.on, here] at failed
      | some s => simp [Call.on, here] at failed
  · rintro ⟨k, r, s, rfl, here, failed⟩
    simp only [Call.on, here, failed]

/-- A call that fails leaves all stores as they were. -/
theorem Call.on_of_error {call : Call} (failed : (call.on ask stores).2 = some (.error fault)) :
    (call.on ask stores).1 = stores := by
  obtain ⟨k, r, s, rfl, here, refused⟩ := on_eq_error_iff.mp failed
  simp only [Call.on, here, refused]

/-- A call leaves the stores alone that it does not ask. -/
theorem Call.getElem?_on {call : Call} {j : Nat} (before : j < stores.length) (apart : ∀ r, call ≠ .ask j r) :
    (call.on ask stores).1[j]? = stores[j]? := by
  cases call with
  | ask k r =>
    have other : k ≠ j := by
      rintro rfl
      exact apart r rfl
    cases here : stores[k]? with
    | none => simp only [Call.on, here]
    | some s =>
      cases asked : ask s r with
      | error fault => simp only [Call.on, here, asked]
      | ok after => simp only [Call.on, here, asked, List.getElem?_set_ne other]
  | copy k =>
    cases here : stores[k]? with
    | none => simp only [Call.on, here]
    | some s => simp only [Call.on, here, List.getElem?_append_left before]

end Calls

section Simulation

variable {α β : Type} {R : α → β → Prop} {as : List α} {bs : List β}

theorem forall₂_getElem? (related : List.Forall₂ R as bs) (k : Nat) :
    (as[k]? = none ∧ bs[k]? = none) ∨ ∃ a b, as[k]? = some a ∧ bs[k]? = some b ∧ R a b := by
  induction related generalizing k with
  | nil => exact Or.inl ⟨rfl, rfl⟩
  | @cons a b _ _ first _ ih =>
    cases k with
    | zero => exact Or.inr ⟨a, b, rfl, rfl, first⟩
    | succ k => simpa only [List.getElem?_cons_succ] using ih k

theorem forall₂_set (related : List.Forall₂ R as bs) {a : α} {b : β} (new : R a b) (k : Nat) :
    List.Forall₂ R (as.set k a) (bs.set k b) := by
  induction related generalizing k with
  | nil => exact .nil
  | cons first rest ih =>
    cases k with
    | zero => exact .cons new rest
    | succ k => exact .cons first (ih k)

variable {logs : List (List Write)} {graphs : List Graph}

/-- Logs tell of the graphs after a call if they did before it, and they give the same answer. -/
theorem Call.tells_on (tell : List.Forall₂ Tells logs graphs) (call : Call) :
    (call.on askLog logs).2 = (call.on Graph.ask graphs).2 ∧
      List.Forall₂ Tells (call.on askLog logs).1 (call.on Graph.ask graphs).1 := by
  cases call with
  | ask k r =>
    rcases forall₂_getElem? tell k with ⟨noLog, noGraph⟩ | ⟨log, g, atLog, atGraph, tells⟩
    · simp only [Call.on, noLog, noGraph]
      exact ⟨trivial, tell⟩
    · rcases tells.ask r with ⟨fault, refuses, refused⟩ | ⟨h, later, answer, answered, same, after⟩
      · simp only [Call.on, atLog, atGraph, refused, ask_of_refuses refuses]
        exact ⟨trivial, tell⟩
      · simp only [Call.on, atLog, atGraph, answered, same]
        exact ⟨trivial, forall₂_set tell after k⟩
  | copy k =>
    rcases forall₂_getElem? tell k with ⟨noLog, noGraph⟩ | ⟨log, g, atLog, atGraph, tells⟩
    · simp only [Call.on, noLog, noGraph]
      exact ⟨trivial, tell⟩
    · simp only [Call.on, atLog, atGraph]
      exact ⟨trivial, List.rel_append tell (.cons tells .nil)⟩

theorem tells_run (tell : List.Forall₂ Tells logs graphs) (calls : List Call) :
    (run askLog calls logs).2 = (run Graph.ask calls graphs).2 ∧
      List.Forall₂ Tells (run askLog calls logs).1 (run Graph.ask calls graphs).1 := by
  induction calls generalizing logs graphs with
  | nil => exact ⟨rfl, tell⟩
  | cons call calls ih =>
    obtain ⟨answer, next⟩ := call.tells_on tell
    obtain ⟨answers, last⟩ := ih next
    exact ⟨congrArg₂ List.cons answer answers, last⟩

end Simulation

/-- Graphs are ordered maps under every run of calls. Each is what the log of its writes tells, and so are all
answers; a call fails exactly where its id is there, to be added, or missing, to be changed or found, and then
changes no graph; and no call changes a graph that it does not ask. -/
theorem ordered_map_run (start : List Graph) (calls : List Call) :
    ∃ graphs logs answers,
      run Graph.ask calls start = (graphs, answers) ∧
      run askLog calls (start.map fun g => g.nodes.map Write.inserted) = (logs, answers) ∧
      List.Forall₂ (fun log g =>
        g.ids.Nodup ∧ g.ids = insertedIds log ∧
        g.nodes = (insertedIds log).filterMap (latest? log) ∧
        (∀ id, g.get? id = latest? log id) ∧ ∀ id x, g.get? id = some x → x.id = id) logs graphs ∧
      ∀ call : Call,
        (∀ fault, (call.on Graph.ask graphs).2 = some (.error fault) ↔
          ∃ k r g, call = .ask k r ∧ graphs[k]? = some g ∧ g.Refuses r fault) ∧
        (∀ fault, (call.on Graph.ask graphs).2 = some (.error fault) → (call.on Graph.ask graphs).1 = graphs) ∧
        ∀ j < graphs.length, (∀ r, call ≠ .ask j r) → (call.on Graph.ask graphs).1[j]? = graphs[j]? := by
  have tell : List.Forall₂ Tells (start.map fun g => g.nodes.map Write.inserted) start :=
    List.forall₂_map_left_iff.mpr (List.forall₂_same.mpr fun g _ => tells_nodes g)
  obtain ⟨same, last⟩ := tells_run tell calls
  refine ⟨_, _, _, rfl, Prod.ext rfl same, ?_, fun call => ⟨fun fault => ?_, fun fault => ?_, fun j => ?_⟩⟩
  · exact last.imp fun log g tells =>
      ⟨g.ids_nodup, tells.order, tells.nodes, tells.versions, fun _ _ => id_of_get?⟩
  · simp only [Call.on_eq_error_iff, ask_eq_error_iff]
  · exact Call.on_of_error
  · exact Call.getElem?_on

/-- A copy begins with the versions of its original, and from then on each of the two has its own. -/
example : (run Graph.ask
      [.ask 0 (.add { id := "oak" }), .copy 0, .ask 1 (.replace { id := "oak", language := "Old" }),
        .ask 0 (.get "oak" none), .ask 1 (.get "oak" none), .ask 0 (.add { id := "oak" })] [{}]).2 =
    [some (.ok (some { id := "oak" })), some (.ok none), some (.ok none), some (.ok (some { id := "oak" })),
      some (.ok (some { id := "oak", language := "Old" })), some (.error (.duplicate (.lexis "oak")))] := by
  decide +kernel

end Graph

end Etymology
