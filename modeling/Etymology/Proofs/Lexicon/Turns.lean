import Etymology.Lexicon.Resolve
import Etymology.Proofs.Control

namespace Etymology.Lexicon

/-- Where the resolving of an id has come to: it is asked for, or a stack is worked on, given by its
top frame and those below. -/
inductive Stage where
  | asked (id : String)
  | working (top : Frame) (below : List Frame)

/-- One turn: the answer, or the next stage. -/
def turn (l : Lexicon) : Stage × Pass → (Stage × Pass) ⊕ (Except Fault Word × Pass)
  | (.asked id, pass) => match pass.words.get? id with
    | some w => .inr (.ok w, pass)
    | none => match l.graph.get id with
      | .error fault => .inr (.error fault, pass)
      | .ok x => match l.enter x pass with
        | .known w pass => .inr (.ok w, pass)
        | .opened frame pass => .inl (.working frame [], pass)
        | .failed fault pass => .inr (.error fault, pass)
  | (.working top below, pass) => match l.advance top pass with
    | .absorbed top pass => .inl (.working top below, pass)
    | .opened inner pass => .inl (.working inner (top :: below), pass)
    | .finished w pass => match below with
      | [] => .inr (.ok w, pass)
      | next :: below => .inl (.working next below, pass)
    | .failed fault pass => .inr (.error fault, pass.abandon ((top :: below).map fun f => f.lexis.id))

/-- What comes of a stage in the end. -/
def outcomeFrom (l : Lexicon) : Stage × Pass → Except Fault Word × Pass
  | (.asked id, p) => l.resolve id p
  | (.working top below, p) => l.run top below p

/-- What a turn does, and when. -/
inductive Turned (l : Lexicon) : Stage × Pass → (Stage × Pass) ⊕ (Except Fault Word × Pass) → Prop
  | kept {id p w} : p.words.get? id = some w → Turned l (.asked id, p) (.inr (.ok w, p))
  | absent {id p fault} : p.words.get? id = none → l.graph.get id = .error fault →
      Turned l (.asked id, p) (.inr (.error fault, p))
  | known {id p x w q} : p.words.get? id = none → l.graph.get id = .ok x → l.enter x p = .known w q →
      Turned l (.asked id, p) (.inr (.ok w, q))
  | refused {id p x fault q} : p.words.get? id = none → l.graph.get id = .ok x → l.enter x p = .failed fault q →
      Turned l (.asked id, p) (.inr (.error fault, q))
  | begun {id p x frame q} : p.words.get? id = none → l.graph.get id = .ok x → l.enter x p = .opened frame q →
      Turned l (.asked id, p) (.inl (.working frame [], q))
  | absorbed {top below p top' q} : l.advance top p = .absorbed top' q →
      Turned l (.working top below, p) (.inl (.working top' below, q))
  | opened {top below p inner q} : l.advance top p = .opened inner q →
      Turned l (.working top below, p) (.inl (.working inner (top :: below), q))
  | finished {top next below p w q} : l.advance top p = .finished w q →
      Turned l (.working top (next :: below), p) (.inl (.working next below, q))
  | done {top p w q} : l.advance top p = .finished w q → Turned l (.working top [], p) (.inr (.ok w, q))
  | failed {top below p fault q} : l.advance top p = .failed fault q →
      Turned l (.working top below, p)
        (.inr (.error fault, q.abandon ((top :: below).map fun f => f.lexis.id)))

theorem turned (l : Lexicon) (s : Stage × Pass) : l.Turned s (l.turn s) := by
  obtain ⟨stage, p⟩ := s
  cases stage with
  | asked id =>
    simp only [turn]
    split
    · next known => exact .kept known
    · next unknown =>
      split
      · next absent => exact .absent unknown absent
      · next found =>
        split
        · next entry => exact .known unknown found entry
        · next entry => exact .begun unknown found entry
        · next entry => exact .refused unknown found entry
  | working top below =>
    simp only [turn]
    split
    · next move => exact .absorbed move
    · next move => exact .opened move
    · next move =>
      cases below with
      | nil => exact .done move
      | cons next below => exact .finished move
    · next move => exact .failed move

/-- A turn that leads on has the outcome of the stage that it leads to. -/
theorem outcomeFrom_of_turn {l : Lexicon} {s t : Stage × Pass} (step : l.turn s = .inl t) :
    l.outcomeFrom s = l.outcomeFrom t := by
  have turned := l.turned s
  rw [step] at turned
  cases turned with
  | begun unknown found entry => simp only [outcomeFrom, resolve, unknown, found, entry]
  | absorbed move => rw [outcomeFrom, run, move, outcomeFrom]
  | opened move => rw [outcomeFrom, run, move, outcomeFrom]
  | finished move => rw [outcomeFrom, run, move, outcomeFrom]

/-- A run takes no more turns than its stack and the lexes that are not entered yet weigh. -/
theorem exists_endsIn_run (l : Lexicon) (top : Frame) (below : List Frame) (p : Pass) :
    ∃ n ≤ l.passWeight p + top.weight + totalWeight Frame.weight below,
      EndsIn l.turn n (.working top below, p) (l.run top below p) := by
  fun_induction l.run top below p with
  | case1 top below p top' q move ih =>
    obtain ⟨n, bound, ends⟩ := ih
    have lighter := weight_of_absorbed move
    exact ⟨n + 1, by omega, .next (by simp only [turn, move]) ends⟩
  | case2 top below p inner q move ih =>
    obtain ⟨n, bound, ends⟩ := ih
    have lighter := weight_of_opened move
    refine ⟨n + 1, ?_, .next (by simp only [turn, move]) ends⟩
    simp only [totalWeight] at bound
    omega
  | case3 top p w q move =>
    refine ⟨1, ?_, .result (by simp only [turn, move])⟩
    simp only [Frame.weight]
    omega
  | case4 top p w q move next below ih =>
    obtain ⟨n, bound, ends⟩ := ih
    have lighter := weight_of_finished move
    refine ⟨n + 1, ?_, .next (by simp only [turn, move]) ends⟩
    simp only [totalWeight, Frame.weight] at *
    omega
  | case5 top below p fault q move =>
    refine ⟨1, ?_, .result (by simp only [turn, move])⟩
    simp only [Frame.weight]
    omega

/-- Resolving an id takes at most two turns for each link of the graph and two for each lexis, and
one for the id itself. -/
theorem exists_endsIn_resolve (l : Lexicon) (id : String) (p : Pass) :
    ∃ n ≤ totalWeight entryWeight l.graph.nodes + 1,
      EndsIn l.turn n (.asked id, p) (l.resolve id p) := by
  unfold resolve
  split
  · next w known => exact ⟨1, by omega, .result (by simp only [turn, known])⟩
  · next unknown =>
    cases found : l.graph.get? id with
    | none =>
      have absent : l.graph.get id = .error (.unknownReference id .lexis none) := by
        rw [Graph.get, found]
      exact ⟨1, by omega, .result (by simp only [turn, unknown, absent])⟩
    | some x =>
      have present : l.graph.get id = .ok x := by rw [Graph.get, found]
      rw [present]
      dsimp only
      split
      · next w q entry => exact ⟨1, by omega, .result (by simp only [turn, unknown, present, entry])⟩
      · next frame q entry =>
        obtain ⟨n, bound, ends⟩ := l.exists_endsIn_run frame [] q
        have lighter := weight_of_enter_opened found entry
        have total : l.passWeight p ≤ totalWeight entryWeight l.graph.nodes :=
          openWeight_le_totalWeight entryWeight (unentered p) l.graph.nodes
        refine ⟨n + 1, ?_, .next (by simp only [turn, unknown, present, entry]) ends⟩
        simp only [totalWeight] at bound
        omega
      · next fault q entry =>
        exact ⟨1, by omega, .result (by simp only [turn, unknown, present, entry])⟩

end Etymology.Lexicon
