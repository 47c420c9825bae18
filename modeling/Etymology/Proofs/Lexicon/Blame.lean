import Etymology.Proofs.Control
import Etymology.Proofs.Lexicon.Origin

namespace Etymology

namespace Frame

/-- What the etymons of a frame make together before any global rule. -/
def gathered (f : Frame) : Word :=
  ⟨f.absorbed.flatMap fun c => c.word.letters⟩

/-- The lexis of a frame as global rules see it. -/
def target (f : Frame) : Lexis :=
  f.lexis.withWord f.gathered

end Frame

namespace Lexicon

/-- While an id is resolved, the stack comes to consist of some frames, beside a pass. -/
def Deriving (l : Lexicon) (id : String) (p : Pass) (frames : List Frame) (q : Pass) : Prop :=
  p.words.get? id = none ∧ ∃ x first entry, l.graph.get? id = some x ∧ l.enter x p = .opened first entry ∧
    l.Walk first entry frames q

/-- The link that a frame has come to has the word of its ancestor, and one of its transforms runs a
script that fails. -/
def HaltedOnLink (l : Lexicon) (f : Frame) (p : Pass) (fault : Fault) : Prop :=
  ∃ link links x w q ts, f.remaining = link :: links ∧ l.graph.get? link.ancestor = some x ∧
    l.enter x p = .known w q ∧ l.transformsOf f.lexis.id link.transforms = .ok ts ∧
    HaltedBy (x.withWord w) l.scripts (Transform.chain ts) w fault

/-- All links of a frame have contributed, and a global rule runs a script that fails. -/
def HaltedByRule (l : Lexicon) (f : Frame) (fault : Fault) : Prop :=
  f.remaining = [] ∧
    GlobalRule.Halted f.target (f.absorbed.map Contribution.source) l.scripts l.rules f.gathered fault

/-- A script that is run on a lexis reports its failure for a lexis and a file of its own choice. -/
def Names (l : Lexicon) (source : Lexis) (lexis file : String) (cause : ScriptFault) : Prop :=
  ∃ runner name text, l.scripts = some runner ∧
    runner.run name text (.ofLexis source) = .failedAt lexis file cause

variable {l : Lexicon} {f : Frame} {p : Pass} {id lexis file : String} {cause : ScriptFault}

/-- A script in a global rule fails for the lexis of the frame, or for one that it names itself. -/
theorem HaltedByRule.named (halted : l.HaltedByRule f (.scriptFailed lexis file cause)) :
    lexis = f.lexis.id ∨ l.Names f.target lexis file cause := by
  obtain ⟨r, -, name, text, -, failed⟩ := GlobalRule.applyAll_error (GlobalRule.applyAll_eq_error_iff.mpr halted.2)
  rcases ScriptRunner.apply_blames failed with ⟨own, -⟩ | ⟨runner, supplied, said⟩
  · exact .inl own
  · exact .inr ⟨runner, name, text, supplied, said⟩

theorem agglutinated_eq_error_iff {fault : Fault} (done : f.remaining = []) :
    l.agglutinated f.lexis f.absorbed = .error fault ↔ l.HaltedByRule f fault := by
  rw [agglutinated, ← GlobalRule.applyAll_eq_runAll, GlobalRule.applyAll_eq_error_iff]
  exact (and_iff_right done).symm

/-- A script that fails on a link is reported for the lexis that has the link, whichever it names. -/
theorem pipeline_eq_scriptFailed_iff {link : Etymon} {source : Lexis} {w : Word} :
    l.pipeline id link source w = .error (.scriptFailed lexis file cause) ↔ lexis = id ∧
      ∃ ts said, l.transformsOf id link.transforms = .ok ts ∧
        HaltedBy source l.scripts (Transform.chain ts) w (.scriptFailed said file cause) := by
  rw [← contribution_eq_pipeline, contribution]
  constructor
  · intro failed
    split at failed
    · next ts looked =>
      obtain ⟨first, ran, renamed⟩ := mapError_eq_error.mp failed
      obtain ⟨s, -, name, text, -, told⟩ := runSteps_error ran
      obtain ⟨said, place, reason, rfl⟩ := ScriptRunner.apply_error told
      cases renamed
      exact ⟨rfl, ts, said, looked, runSteps_eq_error_iff.mp ran⟩
    · next cause looked =>
      obtain ⟨name, -, -, rfl⟩ := transformsOf_error looked
      cases failed
  · rintro ⟨rfl, ts, said, looked, halted⟩
    simp only [looked]
    exact mapError_eq_error.mpr ⟨_, runSteps_eq_error_iff.mpr halted, rfl⟩

/-- A frame fails with a script on the link that it has come to or, when no link is left, in a rule. -/
theorem advance_scriptFailed_iff :
    (∃ q, l.advance f p = .failed (.scriptFailed lexis file cause) q) ↔
      lexis = f.lexis.id ∧ (∃ said, l.HaltedOnLink f p (.scriptFailed said file cause)) ∨
        l.HaltedByRule f (.scriptFailed lexis file cause) := by
  constructor
  · rintro ⟨q, move⟩
    have moved := l.moved f p
    rw [move] at moved
    cases moved with
    | unfinished done joined => exact .inr ((agglutinated_eq_error_iff done).mp joined)
    | @blocked link links x _ _ pending found entry =>
      -- Entering a lexis runs no script.
      have entered := l.entered x p
      rw [entry] at entered
      cases entered with
      | ungenerated unknown bare idle unlinked run => cases generated_error run
    | @refused link links x w _ _ pending found entry run =>
      obtain ⟨same, ts, said, looked, halted⟩ := pipeline_eq_scriptFailed_iff.mp run
      exact .inl ⟨same, said, link, links, x, w, q, ts, pending, found, entry, looked, halted⟩
  · rintro (⟨same, said, link, links, x, w, q, ts, pending, found, entry, looked, halted⟩ | halted)
    · have run := pipeline_eq_scriptFailed_iff.mpr ⟨same, ts, said, looked, halted⟩
      exact ⟨q, by simp only [advance, pending, found, entry, contribution_eq_pipeline, run]⟩
    · have joined := (agglutinated_eq_error_iff halted.1).mpr halted
      exact ⟨p, by simp only [advance, halted.1, Frame.sources, Frame.contributions, joined_eq_agglutinated, joined]⟩

/-- From each of the states that a run goes through, it comes to the same end. -/
theorem Walk.run_eq {first top : Frame} {entry q : Pass} {below : List Frame}
    (walk : l.Walk first entry (top :: below) q) : l.run first [] entry = l.run top below q := by
  generalize frames_eq : top :: below = frames at walk
  induction walk generalizing top below with
  | start =>
    cases frames_eq
    rfl
  | absorbed walk move ih =>
    cases frames_eq
    rw [ih rfl, run, move]
  | opened walk move ih =>
    cases frames_eq
    rw [ih rfl, run, move]
  | finished walk move ih =>
    cases frames_eq
    rw [ih rfl, run, move]

theorem Deriving.resolve_eq {top : Frame} {below : List Frame} {q : Pass}
    (derived : l.Deriving id p (top :: below) q) : l.resolve id p = l.run top below q := by
  obtain ⟨unknown, x, first, entry, found, entered, walk⟩ := derived
  rw [← walk.run_eq]
  simp only [resolve, unknown, Graph.get, found, entered]

/-- Resolving fails with a script where the derivation comes to a frame that does. -/
theorem resolve_scriptFailed_iff_advance :
    (l.resolve id p).1 = .error (.scriptFailed lexis file cause) ↔
      ∃ top below q, l.Deriving id p (top :: below) q ∧
        ∃ r, l.advance top q = .failed (.scriptFailed lexis file cause) r := by
  constructor
  · intro failed
    have resolved := l.resolved id p
    generalize l.resolve id p = result at resolved failed
    cases resolved with
    | kept => cases failed
    | absent => cases failed
    | known => cases failed
    | @failed x fault q found entry =>
      cases failed
      have entered := l.entered x p
      rw [entry] at entered
      cases entered with
      | ungenerated unknown bare idle unlinked run => cases generated_error run
    | @run x _ found entry ending =>
      have entered := l.entered x p
      rw [entry] at entered
      cases entered with
      | opened unknown bare idle linked =>
        rw [Graph.id_of_get? found] at unknown
        cases ending with
        | word => cases failed
        | @fault top below q fault r walk move =>
          cases failed
          exact ⟨top, below, q, ⟨unknown, x, _, _, found, entry, walk⟩, r, move⟩
  · rintro ⟨top, below, q, derived, r, move⟩
    rw [derived.resolve_eq, run, move]

/-- Resolving fails with a script exactly where the derivation comes to a lexis, on top of the stack, whose
link or whose global rules run a script that fails. The lexis that the failure is reported for is the one
on top of the stack, except where a script in a global rule names another. -/
theorem resolve_scriptFailed_iff (l : Lexicon) (id : String) (p : Pass) (lexis file : String)
    (cause : ScriptFault) : (l.resolve id p).1 = .error (.scriptFailed lexis file cause) ↔
      ∃ top below q, l.Deriving id p (top :: below) q ∧
        (lexis = top.lexis.id ∧ (∃ said, l.HaltedOnLink top q (.scriptFailed said file cause)) ∨
          (lexis = top.lexis.id ∨ l.Names top.target lexis file cause) ∧
            l.HaltedByRule top (.scriptFailed lexis file cause)) := by
  rw [resolve_scriptFailed_iff_advance]
  constructor
  · rintro ⟨top, below, q, derived, move⟩
    refine ⟨top, below, q, derived, ?_⟩
    rcases advance_scriptFailed_iff.mp move with onLink | byRule
    · exact .inl onLink
    · exact .inr ⟨byRule.named, byRule⟩
  · rintro ⟨top, below, q, derived, onLink | ⟨-, byRule⟩⟩
    · exact ⟨top, below, q, derived, advance_scriptFailed_iff.mpr (.inl onLink)⟩
    · exact ⟨top, below, q, derived, advance_scriptFailed_iff.mpr (.inr byRule)⟩

/-- The child derives from the root, and a rule runs a script that fails for a lexis of its own choice. -/
def hearsay : Lexicon where
  graph := {
    nodes := [
      { id := "root", word := some (.ofText "kata") },
      { id := "child", etymons := [⟨"root", [], 0⟩] }]
    ids_nodup := by decide }
  rules := [{ primitives := [.script "f"] }]
  scripts := some { run := fun _ _ _ => .failedAt "elsewhere" "g" (.told "t") }

/-- Its failure is reported for a lexis that the graph does not have, while only the child is derived. -/
theorem hearsay_elsewhere :
    (hearsay.resolve "child" {}).1 = .error (.scriptFailed "elsewhere" "g" (.told "t")) ∧
      "elsewhere" ∉ hearsay.graph.ids := by
  decide +kernel

end Lexicon

end Etymology
