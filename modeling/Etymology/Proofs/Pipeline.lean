import Etymology.GlobalRule
import Etymology.Lexicon.Basic
import Etymology.Proofs.Table

namespace Etymology

theorem Predicate.holdsOpt_iff {p? : Option Predicate} {x : Lexis} :
    holdsOpt p? x = true ↔ ∀ p, p? = some p → p.holds x = true := by
  cases p? <;> simp [holdsOpt]

/-- A transform as one edit: all of its primitives where its condition holds of the source, and
none of them elsewhere. -/
def Transform.run (source : Lexis) (scripts : Option ScriptRunner) (w : Word) (t : Transform) :
    Except Fault Word :=
  if Predicate.holdsOpt t.conditional source then Primitive.applyAll source scripts t.primitives w
  else .ok w

/-- The rules that apply to a lexis, one after the other. -/
def GlobalRule.runAll (x : Lexis) (etymons : List Lexis) (scripts : Option ScriptRunner)
    (rules : List GlobalRule) (w : Word) : Except Fault Word :=
  (rules.filter fun r => r.appliesTo x etymons).foldlM
    (fun w r => Primitive.applyAll x scripts r.primitives w) w

theorem runSteps_append (source : Lexis) (scripts : Option ScriptRunner) (steps more : List Step)
    (w : Word) : runSteps source scripts (steps ++ more) w =
      runSteps source scripts steps w >>= runSteps source scripts more := by
  induction steps generalizing w with
  | nil => rfl
  | cons s steps ih =>
    simp only [List.cons_append, runSteps]
    split
    · cases s.primitive.apply w source scripts with
      | ok v => exact ih v
      | error fault => rfl
    · exact ih w

/-- Steps that share one condition are all taken or all left out, whatever the earlier ones make of
the word. -/
theorem runSteps_gated (source : Lexis) (scripts : Option ScriptRunner) (conditional : Option Predicate)
    (label : String) (primitives : List Primitive) (w : Word) :
    runSteps source scripts (primitives.map fun p => ⟨p, conditional, label⟩) w =
      if Predicate.holdsOpt conditional source then Primitive.applyAll source scripts primitives w
      else .ok w := by
  induction primitives generalizing w with
  | nil => simp [runSteps, Primitive.applyAll]
  | cons p primitives ih =>
    simp only [List.map_cons, runSteps, Primitive.applyAll]
    by_cases gate : Predicate.holdsOpt conditional source = true
    · simp only [gate, if_true] at ih ⊢
      cases p.apply w source scripts with
      | ok v => exact ih v
      | error fault => rfl
    · simpa [gate] using ih w

theorem runSteps_chain (source : Lexis) (scripts : Option ScriptRunner) (ts : List Transform) (w : Word) :
    runSteps source scripts (Transform.chain ts) w = ts.foldlM (Transform.run source scripts) w := by
  induction ts generalizing w with
  | nil => rfl
  | cons t ts ih =>
    have first : runSteps source scripts t.steps w = t.run source scripts w :=
      runSteps_gated source scripts t.conditional t.name t.primitives w
    rw [Transform.chain, List.flatMap_cons, runSteps_append, first, List.foldlM_cons]
    exact congrArg _ (funext ih)

theorem GlobalRule.applyAll_eq_runAll (x : Lexis) (etymons : List Lexis) (scripts : Option ScriptRunner)
    (rules : List GlobalRule) (w : Word) :
    GlobalRule.applyAll x etymons scripts rules w = GlobalRule.runAll x etymons scripts rules w := by
  induction rules generalizing w with
  | nil => rfl
  | cons r rules ih =>
    by_cases applies : r.appliesTo x etymons = true
    · have first : runSteps x scripts r.steps w = Primitive.applyAll x scripts r.primitives w := by
        rw [steps, runSteps_gated, Predicate.holdsOpt, if_pos rfl]
      simp only [applyAll, runAll, applies, if_true, List.filter_cons_of_pos, List.foldlM_cons, first]
      cases Primitive.applyAll x scripts r.primitives w with
      | ok v => exact ih v
      | error fault => rfl
    · simp only [applyAll, runAll, applies, Bool.false_eq_true, if_false, not_false_eq_true,
        List.filter_cons_of_neg]
      exact ih w

theorem ScriptRunner.apply_error {scripts : Option ScriptRunner} {file text : String} {source : Lexis}
    {fault : Fault} (failed : apply scripts file text source = .error fault) :
    ∃ lexis place cause, fault = .scriptFailed lexis place cause := by
  unfold apply at failed
  split at failed
  · exact ⟨_, _, _, (Except.error.inj failed).symm⟩
  · split at failed
    · cases failed
    · exact ⟨_, _, _, (Except.error.inj failed).symm⟩
    · exact ⟨_, _, _, (Except.error.inj failed).symm⟩
    · exact ⟨_, _, _, (Except.error.inj failed).symm⟩

/-- A script that fails is reported with the source and the file that it ran for, unless it names a lexis and
a file itself. -/
theorem ScriptRunner.apply_blames {scripts : Option ScriptRunner} {file text lexis place : String} {source : Lexis}
    {cause : ScriptFault} (failed : apply scripts file text source = .error (.scriptFailed lexis place cause)) :
    lexis = source.id ∧ place = file ∨
      ∃ runner, scripts = some runner ∧ runner.run file text (.ofLexis source) = .failedAt lexis place cause := by
  unfold apply at failed
  split at failed
  · cases failed
    exact .inl ⟨rfl, rfl⟩
  · next runner =>
    split at failed
    · cases failed
    · cases failed
      exact .inl ⟨rfl, rfl⟩
    · cases failed
      exact .inl ⟨rfl, rfl⟩
    · next said =>
      cases failed
      exact .inr ⟨runner, rfl, said⟩

theorem Primitive.apply_error {p : Primitive} {w : Word} {source : Lexis}
    {scripts : Option ScriptRunner} {fault : Fault} (failed : p.apply w source scripts = .error fault) :
    ∃ file, p = .script file ∧ ScriptRunner.apply scripts file w.text source = .error fault := by
  cases p with
  | script file =>
    refine ⟨file, rfl, ?_⟩
    cases ran : ScriptRunner.apply scripts file w.text source with
    | ok s => simp [apply, ran, Except.map] at failed
    | error cause => simpa [apply, ran, Except.map] using failed
  | _ => cases failed

/-- A step whose condition holds is reached after others that went well, and runs a script that fails. -/
def HaltedBy (source : Lexis) (scripts : Option ScriptRunner) (steps : List Step) (w : Word) (fault : Fault) : Prop :=
  ∃ before s after file v, steps = before ++ s :: after ∧ s.primitive = .script file ∧
    Predicate.holdsOpt s.conditional source = true ∧ runSteps source scripts before w = .ok v ∧
    ScriptRunner.apply scripts file v.text source = .error fault

/-- Nothing but such a step ends a run without a word. -/
theorem runSteps_eq_error_iff {source : Lexis} {scripts : Option ScriptRunner} {steps : List Step} {w : Word}
    {fault : Fault} : runSteps source scripts steps w = .error fault ↔ HaltedBy source scripts steps w fault := by
  constructor
  · intro failed
    induction steps generalizing w with
    | nil => cases failed
    | cons s steps ih =>
      -- A step that does not end the run belongs to those that went well.
      have later : ∀ v, runSteps source scripts [s] w = .ok v → runSteps source scripts steps v = .error fault →
          HaltedBy source scripts (s :: steps) w fault := by
        intro v first rest
        obtain ⟨before, t, after, file, u, rfl, script, gate, reached, ran⟩ := ih rest
        refine ⟨s :: before, t, after, file, u, rfl, script, gate, ?_, ran⟩
        rw [← List.singleton_append, runSteps_append, first]
        exact reached
      rw [runSteps] at failed
      split at failed
      · next gate =>
        split at failed
        · next v edited =>
          exact later v (by rw [runSteps, if_pos gate, edited]; rfl) failed
        · next cause edited =>
          cases failed
          obtain ⟨file, script, ran⟩ := Primitive.apply_error edited
          exact ⟨[], s, steps, file, w, rfl, script, gate, rfl, ran⟩
      · next shut => exact later w (by rw [runSteps, if_neg shut]; rfl) failed
  · rintro ⟨before, s, after, file, v, rfl, script, gate, reached, ran⟩
    rw [runSteps_append, reached]
    change runSteps source scripts (s :: after) v = .error fault
    rw [runSteps, if_pos gate, script, Primitive.apply, ran]
    rfl

theorem runSteps_error {source : Lexis} {scripts : Option ScriptRunner} {steps : List Step} {w : Word}
    {fault : Fault} (failed : runSteps source scripts steps w = .error fault) :
    ∃ s ∈ steps, ∃ file text, s.primitive = .script file ∧
      ScriptRunner.apply scripts file text source = .error fault := by
  obtain ⟨before, s, after, file, v, rfl, script, -, -, ran⟩ := runSteps_eq_error_iff.mp failed
  exact ⟨s, List.mem_append_right before List.mem_cons_self, file, v.text, script, ran⟩

/-- A rule that applies is reached after others that went well, and runs a script that fails. -/
def GlobalRule.Halted (x : Lexis) (etymons : List Lexis) (scripts : Option ScriptRunner) (rules : List GlobalRule)
    (w : Word) (fault : Fault) : Prop :=
  ∃ before r after v, rules = before ++ r :: after ∧ r.appliesTo x etymons = true ∧
    GlobalRule.applyAll x etymons scripts before w = .ok v ∧ HaltedBy x scripts r.steps v fault

theorem GlobalRule.applyAll_append (x : Lexis) (etymons : List Lexis) (scripts : Option ScriptRunner)
    (rules more : List GlobalRule) (w : Word) : GlobalRule.applyAll x etymons scripts (rules ++ more) w =
      GlobalRule.applyAll x etymons scripts rules w >>= GlobalRule.applyAll x etymons scripts more := by
  induction rules generalizing w with
  | nil => rfl
  | cons r rules ih =>
    simp only [List.cons_append, applyAll]
    split
    · cases runSteps x scripts r.steps w with
      | ok v => exact ih v
      | error fault => rfl
    · exact ih w

/-- Nothing but such a rule leaves the rules without a word. -/
theorem GlobalRule.applyAll_eq_error_iff {x : Lexis} {etymons : List Lexis} {scripts : Option ScriptRunner}
    {rules : List GlobalRule} {w : Word} {fault : Fault} :
    GlobalRule.applyAll x etymons scripts rules w = .error fault ↔
      GlobalRule.Halted x etymons scripts rules w fault := by
  constructor
  · intro failed
    induction rules generalizing w with
    | nil => cases failed
    | cons r rules ih =>
      -- A rule that does not end the run belongs to those that went well.
      have later : ∀ v, applyAll x etymons scripts [r] w = .ok v → applyAll x etymons scripts rules v = .error fault →
          Halted x etymons scripts (r :: rules) w fault := by
        intro v first rest
        obtain ⟨before, s, after, u, rfl, applies, reached, halted⟩ := ih rest
        refine ⟨r :: before, s, after, u, rfl, applies, ?_, halted⟩
        rw [← List.singleton_append, applyAll_append, first]
        exact reached
      rw [applyAll] at failed
      split at failed
      · next applies =>
        split at failed
        · next v edited => exact later v (by rw [applyAll, if_pos applies, edited]; rfl) failed
        · next cause edited =>
          cases failed
          exact ⟨[], r, rules, w, rfl, applies, rfl, runSteps_eq_error_iff.mp edited⟩
      · next idle => exact later w (by rw [applyAll, if_neg idle]; rfl) failed
  · rintro ⟨before, r, after, v, rfl, applies, reached, halted⟩
    rw [applyAll_append, reached]
    change applyAll x etymons scripts (r :: after) v = .error fault
    rw [applyAll, if_pos applies, runSteps_eq_error_iff.mpr halted]

theorem GlobalRule.applyAll_error {x : Lexis} {etymons : List Lexis} {scripts : Option ScriptRunner}
    {rules : List GlobalRule} {w : Word} {fault : Fault}
    (failed : GlobalRule.applyAll x etymons scripts rules w = .error fault) :
    ∃ r ∈ rules, ∃ file text, Primitive.script file ∈ r.primitives ∧
      ScriptRunner.apply scripts file text x = .error fault := by
  obtain ⟨before, r, after, v, rfl, -, -, halted⟩ := applyAll_eq_error_iff.mp failed
  obtain ⟨s, member, file, text, same, ran⟩ := runSteps_error (runSteps_eq_error_iff.mpr halted)
  obtain ⟨p, inside, rfl⟩ := List.mem_map.mp member
  exact ⟨r, List.mem_append_right before List.mem_cons_self, file, text, same ▸ inside, ran⟩

end Etymology
