import Etymology.Graph.Open
import Etymology.Lexicon.Basic

namespace Etymology

/-- What an etymon has contributed: the link, the etymon with its word, and the word that the
transforms of the link made of it. -/
structure Contribution where
  link : Etymon
  source : Lexis
  word : Word
deriving DecidableEq, Inhabited

/-- A lexis whose etymons are being resolved, with the links that are still to be followed. -/
structure Frame where
  lexis : Lexis
  absorbed : List Contribution := []
  remaining : List Etymon
deriving DecidableEq, Inhabited

namespace Frame

/-- The links of the lexis in the order in which they are followed. -/
def links (f : Frame) : List Etymon :=
  f.lexis.orderedEtymons

/-- The number of the link that a frame has come to. -/
def index (f : Frame) : Nat :=
  f.links.length - f.remaining.length

def contributions (f : Frame) : List Word :=
  f.absorbed.map Contribution.word

def sources (f : Frame) : List Lexis :=
  f.absorbed.map Contribution.source

@[simp]
theorem length_contributions (f : Frame) : f.contributions.length = f.absorbed.length :=
  List.length_map _

@[simp]
theorem length_sources (f : Frame) : f.sources.length = f.absorbed.length :=
  List.length_map _

theorem getElem?_contributions (f : Frame) (i : Nat) : f.contributions[i]? = f.absorbed[i]?.map Contribution.word :=
  List.getElem?_map

theorem getElem?_sources (f : Frame) (i : Nat) : f.sources[i]? = f.absorbed[i]?.map Contribution.source :=
  List.getElem?_map

def weight (f : Frame) : Nat :=
  2 * f.remaining.length + 1

end Frame

/-- What comes of entering a lexis: its word, or a frame to be worked on first. -/
inductive Entry where
  | known (w : Word) (pass : Pass)
  | opened (frame : Frame) (pass : Pass)
  | failed (fault : Fault) (pass : Pass)

/-- What one step makes of the frame on top of the stack. -/
inductive Move where
  | absorbed (frame : Frame) (pass : Pass)
  | opened (frame : Frame) (pass : Pass)
  | finished (w : Word) (pass : Pass)
  | failed (fault : Fault) (pass : Pass)

namespace Lexicon

def enter (l : Lexicon) (x : Lexis) (pass : Pass) : Entry :=
  match pass.words.get? x.id with
  | some w => .known w pass
  | none => match x.literal? with
    | some w => .known w (pass.keep x.id w)
    | none =>
      if pass.inProgress.contains x.id then .failed (.cycle (pass.chainFrom x.id)) pass
      else if x.etymons.isEmpty then
        match l.generated x pass.picks with
        | (.ok w, picks) => .known w ({ pass with picks := picks }.keep x.id w)
        | (.error fault, picks) => .failed fault { pass with picks := picks }
      else .opened ⟨x, [], x.orderedEtymons⟩ (pass.start x.id)

def advance (l : Lexicon) (frame : Frame) (pass : Pass) : Move :=
  match frame.remaining with
  | [] =>
    match l.joined frame.lexis frame.sources frame.contributions with
    | .ok w => .finished w (pass.finish frame.lexis.id w)
    | .error fault => .failed fault pass
  | link :: links =>
    match l.graph.get? link.ancestor with
    | none => .failed (.unknownReference link.ancestor .lexis (some frame.lexis.id)) pass
    | some x => match l.enter x pass with
      | .failed fault pass => .failed fault pass
      | .opened inner pass => .opened inner pass
      | .known w pass =>
        match l.contribution frame.lexis.id link (x.withWord w) w with
        | .ok c =>
          .absorbed { frame with
            absorbed := frame.absorbed ++ [⟨link, x.withWord w, c⟩], remaining := links } pass
        | .error fault => .failed fault pass

/-- A lexis that a pass may still enter. -/
def unentered (pass : Pass) (x : Lexis) : Bool :=
  !pass.words.contains x.id && !pass.inProgress.contains x.id

/-- A lexis weighs more than the frame that it opens. -/
def entryWeight (x : Lexis) : Nat :=
  2 * x.etymons.length + 2

def passWeight (l : Lexicon) (pass : Pass) : Nat :=
  openWeight entryWeight (unentered pass) l.graph.nodes

theorem unentered_of_keep {pass : Pass} {id : String} {w : Word} {y : Lexis}
    (still : unentered (pass.keep id w) y = true) : unentered pass y = true := by
  simp only [unentered, Pass.keep, Table.contains_put] at *
  simp_all

theorem unentered_of_finish {pass : Pass} {id : String} {w : Word} {y : Lexis}
    (still : unentered (pass.finish id w) y = true) : unentered pass y = true := by
  simp only [unentered, Pass.finish, Table.contains_put, Bool.and_eq_true, Bool.not_eq_true',
    Bool.or_eq_false_iff, List.contains_eq_mem, decide_eq_false_iff_not, List.mem_filter,
    not_and, bne_iff_ne, beq_eq_false_iff_ne] at *
  obtain ⟨⟨other, unknown⟩, idle⟩ := still
  exact ⟨unknown, fun member => idle member (Ne.symm other)⟩

theorem unentered_of_start {pass : Pass} {id : String} {y : Lexis}
    (still : unentered (pass.start id) y = true) : unentered pass y = true := by
  simp only [unentered, Pass.start] at *
  simp_all

/-- Entering a lexis whose word is known or can be had at once opens no other. -/
theorem unentered_of_enter_known {l : Lexicon} {x y : Lexis} {pass after : Pass} {w : Word}
    (entered : l.enter x pass = .known w after) (still : unentered after y = true) :
    unentered pass y = true := by
  unfold enter at entered
  split at entered
  · cases entered
    exact still
  · split at entered
    · cases entered
      exact unentered_of_keep still
    · split at entered
      · cases entered
      · split at entered
        · split at entered
          · cases entered
            exact unentered_of_keep still
          · cases entered
        · cases entered

/-- A frame is opened only for a lexis that has no word yet and is not in progress. -/
theorem of_enter_opened {l : Lexicon} {x : Lexis} {pass after : Pass} {f : Frame}
    (entered : l.enter x pass = .opened f after) :
    after = pass.start x.id ∧ f = ⟨x, [], x.orderedEtymons⟩ ∧ unentered pass x = true := by
  unfold enter at entered
  split at entered
  · cases entered
  · next absent =>
    split at entered
    · cases entered
    · split at entered
      · cases entered
      · next idle =>
        split at entered
        · split at entered <;> cases entered
        · cases entered
          refine ⟨rfl, rfl, ?_⟩
          rw [Table.get?_eq_none] at absent
          simp_all [unentered]

theorem length_orderedEtymons (x : Lexis) : x.orderedEtymons.length = x.etymons.length :=
  List.length_mergeSort _

theorem weight_of_absorbed {l : Lexicon} {frame frame' : Frame} {pass pass' : Pass}
    (moved : l.advance frame pass = .absorbed frame' pass') :
    l.passWeight pass' + frame'.weight < l.passWeight pass + frame.weight := by
  unfold advance at moved
  split at moved
  · split at moved <;> cases moved
  · next link links pending =>
    split at moved
    · cases moved
    · split at moved
      · cases moved
      · cases moved
      · next _ entered =>
        split at moved
        · cases moved
          have closes : ∀ y, unentered pass' y = true → unentered pass y = true :=
            fun _ => unentered_of_enter_known entered
          have := openWeight_le entryWeight closes l.graph.nodes
          simp only [passWeight, Frame.weight, pending, List.length_cons]
          omega
        · cases moved

theorem weight_of_enter_opened {l : Lexicon} {id : String} {x : Lexis} {inner : Frame}
    {pass pass' : Pass} (found : l.graph.get? id = some x) (entered : l.enter x pass = .opened inner pass') :
    l.passWeight pass' + inner.weight < l.passWeight pass := by
  obtain ⟨rfl, rfl, fresh⟩ := of_enter_opened entered
  have closed : unentered (pass.start x.id) x = false := by simp [unentered, Pass.start]
  have closes : ∀ y, unentered (pass.start x.id) y = true → unentered pass y = true :=
    fun _ => unentered_of_start
  have := openWeight_add_le entryWeight closes (Graph.mem_of_get? found) fresh closed
  simp only [passWeight, Frame.weight, length_orderedEtymons]
  simp only [entryWeight] at this ⊢
  omega

theorem weight_of_opened {l : Lexicon} {frame inner : Frame} {pass pass' : Pass}
    (moved : l.advance frame pass = .opened inner pass') :
    l.passWeight pass' + inner.weight < l.passWeight pass := by
  unfold advance at moved
  split at moved
  · split at moved <;> cases moved
  · split at moved
    · cases moved
    · next x found =>
      split at moved
      · cases moved
      · next entered =>
        cases moved
        exact weight_of_enter_opened found entered
      · split at moved <;> cases moved

theorem weight_of_finished {l : Lexicon} {frame : Frame} {pass pass' : Pass} {w : Word}
    (moved : l.advance frame pass = .finished w pass') :
    l.passWeight pass' ≤ l.passWeight pass := by
  unfold advance at moved
  split at moved
  · split at moved
    · cases moved
      exact openWeight_le entryWeight (fun _ => unentered_of_finish) l.graph.nodes
    · cases moved
  · split at moved
    · cases moved
    · split at moved
      · cases moved
      · cases moved
      · split at moved <;> cases moved

/-- Works on the stack, given by its top frame and those below, until the lowest frame has its
word. A failure leaves no lexis of the stack in progress. -/
def run (l : Lexicon) (top : Frame) (below : List Frame) (pass : Pass) : Except Fault Word × Pass :=
  match _moved : l.advance top pass with
  | .absorbed top pass => l.run top below pass
  | .opened inner pass => l.run inner (top :: below) pass
  | .finished w pass => match below with
    | [] => (.ok w, pass)
    | next :: below => l.run next below pass
  | .failed fault pass => (.error fault, pass.abandon ((top :: below).map fun f => f.lexis.id))
termination_by l.passWeight pass + top.weight + totalWeight Frame.weight below
decreasing_by
  · have := weight_of_absorbed _moved
    omega
  · have := weight_of_opened _moved
    simp only [totalWeight]
    omega
  · have := weight_of_finished _moved
    simp only [totalWeight, Frame.weight] at *
    omega

/-- The word of a lexis. -/
def resolve (l : Lexicon) (id : String) (pass : Pass) : Except Fault Word × Pass :=
  match pass.words.get? id with
  | some w => (.ok w, pass)
  | none => match l.graph.get id with
    | .error fault => (.error fault, pass)
    | .ok x => match l.enter x pass with
      | .known w pass => (.ok w, pass)
      | .opened frame pass => l.run frame [] pass
      | .failed fault pass => (.error fault, pass)

/-- Resolves some ids in turn, up to the first that fails. -/
def resolveEach (l : Lexicon) : List String → Pass → Except Fault Unit × Pass
  | [], pass => (.ok (), pass)
  | id :: ids, pass => match l.resolve id pass with
    | (.ok _, pass) => l.resolveEach ids pass
    | (.error fault, pass) => (.error fault, pass)

/-- All words known to the pass once every lexis has its word. -/
def resolveAll (l : Lexicon) (pass : Pass) : Except Fault (Table Word) × Pass :=
  match l.resolveEach l.graph.ids pass with
  | (.ok (), pass) => (.ok pass.words, pass)
  | (.error fault, pass) => (.error fault, pass)

/-- A lexis with its word, as conditions and scripts see it. -/
def view (l : Lexicon) (x : Lexis) (pass : Pass) : Except Fault Lexis × Pass :=
  match l.resolve x.id pass with
  | (.ok w, pass) => (.ok (x.withWord w), pass)
  | (.error fault, pass) => (.error fault, pass)

def textsFrom (l : Lexicon) (found : Table String) : List String → Pass → Except Fault (Table String)
  | [], _ => .ok found
  | id :: ids, pass => match l.resolve id pass with
    | (.ok w, pass) => l.textsFrom (found.put id w.text) ids pass
    | (.error fault, _) => .error fault

/-- The texts of words by id, found in a pass of their own. An id that is asked for again keeps
its first place. -/
def texts (l : Lexicon) (ids : List String) : Except Fault (Table String) :=
  l.textsFrom {} ids {}

end Lexicon

end Etymology
