import Etymology.Proofs.Pipeline

namespace Etymology

/-- A condition on etymons is met by the first of them, by all or by one. It takes an etymon to meet it. -/
def EtymonCondition.Met (c : EtymonCondition) (etymons : List Lexis) : Prop :=
  etymons ≠ [] ∧ match c.quantifier with
    | .first => ∃ e, etymons.head? = some e ∧ c.predicate.holds e = true
    | .all => ∀ e ∈ etymons, c.predicate.holds e = true
    | .one => ∃ e ∈ etymons, c.predicate.holds e = true

/-- The transforms whose condition holds of the source. -/
def Transform.selected (source : Lexis) (ts : List Transform) : List Transform :=
  ts.filter fun t => Predicate.holdsOpt t.conditional source

/-- The rules that apply to a lexis with its etymons. -/
def GlobalRule.selected (x : Lexis) (etymons : List Lexis) (rules : List GlobalRule) : List GlobalRule :=
  rules.filter fun r => r.appliesTo x etymons

theorem EtymonCondition.holds_iff {c : EtymonCondition} {etymons : List Lexis} :
    c.holds etymons = true ↔ c.Met etymons := by
  unfold holds Met
  cases etymons with
  | nil => simp
  | cons e es => cases c.quantifier <;> simp

theorem GlobalRule.appliesTo_iff {r : GlobalRule} {x : Lexis} {etymons : List Lexis} :
    r.appliesTo x etymons = true ↔
      (∀ p, r.lexis = some p → p.holds x = true) ∧ ∀ c, r.etymon = some c → c.Met etymons := by
  rw [appliesTo, Bool.and_eq_true, Predicate.holdsOpt_iff]
  simp only [Option.all_eq_true, EtymonCondition.holds_iff]

namespace Primitive

variable {source : Lexis} {scripts : Option ScriptRunner}

theorem applyAll_append (ps more : List Primitive) (w : Word) :
    applyAll source scripts (ps ++ more) w = applyAll source scripts ps w >>= applyAll source scripts more := by
  induction ps generalizing w with
  | nil => rfl
  | cons p ps ih =>
    rw [List.cons_append, applyAll, applyAll]
    cases p.apply w source scripts with
    | ok v => exact ih v
    | error fault => rfl

theorem foldlM_applyAll {α : Type} (f : α → List Primitive) (as : List α) (w : Word) :
    as.foldlM (fun w a => applyAll source scripts (f a) w) w = applyAll source scripts (as.flatMap f) w := by
  induction as generalizing w with
  | nil => rfl
  | cons a as ih =>
    rw [List.foldlM_cons, List.flatMap_cons, applyAll_append]
    exact congrArg _ (funext ih)

/-- Primitives as steps without a condition. -/
def ungated (ps : List Primitive) : List Step :=
  ps.map fun p => { primitive := p }

theorem runSteps_ungated (ps : List Primitive) (w : Word) :
    runSteps source scripts (ungated ps) w = applyAll source scripts ps w :=
  runSteps_gated source scripts none "" ps w

/-- Primitives are applied up to the first script that fails. -/
theorem applyAll_eq_error_iff {ps : List Primitive} {w : Word} {fault : Fault} :
    applyAll source scripts ps w = .error fault ↔ ∃ before file after v, ps = before ++ .script file :: after ∧
      applyAll source scripts before w = .ok v ∧ ScriptRunner.apply scripts file v.text source = .error fault := by
  constructor
  · intro failed
    rw [← runSteps_ungated, runSteps_eq_error_iff] at failed
    obtain ⟨before, s, after, file, v, split, script, -, reached, ran⟩ := failed
    obtain ⟨done, rest, rfl, rfl, remaining⟩ := List.map_eq_append_iff.mp split
    obtain ⟨p, todo, rfl, rfl, rfl⟩ := List.map_eq_cons_iff.mp remaining
    obtain rfl : p = .script file := script
    exact ⟨done, file, todo, v, rfl, (runSteps_ungated done w).symm.trans reached, ran⟩
  · rintro ⟨before, file, after, v, rfl, reached, ran⟩
    have failed : (script file).apply v source scripts = .error fault := by
      rw [apply, ran]
      rfl
    rw [applyAll_append, reached]
    change applyAll source scripts (.script file :: after) v = .error fault
    rw [applyAll, failed]
    rfl

end Primitive

/-- A chain of transforms is the sequence of the primitives of those that are selected. -/
theorem Transform.runSteps_chain_eq_applyAll (source : Lexis) (scripts : Option ScriptRunner) (ts : List Transform)
    (w : Word) : runSteps source scripts (chain ts) w =
      Primitive.applyAll source scripts ((selected source ts).flatMap primitives) w := by
  calc runSteps source scripts (chain ts) w
    _ = ts.foldlM (run source scripts) w := runSteps_chain source scripts ts w
    _ = (selected source ts).foldlM (fun w t => Primitive.applyAll source scripts t.primitives w) w :=
      List.foldlM_filter.symm
    _ = Primitive.applyAll source scripts ((selected source ts).flatMap primitives) w :=
      Primitive.foldlM_applyAll primitives _ w

/-- So are global rules. -/
theorem GlobalRule.applyAll_eq_applyAll (x : Lexis) (etymons : List Lexis) (scripts : Option ScriptRunner)
    (rules : List GlobalRule) (w : Word) : applyAll x etymons scripts rules w =
      Primitive.applyAll x scripts ((selected x etymons rules).flatMap primitives) w := by
  rw [applyAll_eq_runAll]
  exact Primitive.foldlM_applyAll primitives _ w

/-- Gates are decided once, by the lexis that a word comes from and before anything is done to the word. A chain of
transforms does what all primitives of those do, in order, whose condition holds of the source. Global rules do what
a single run over all primitives of those does that apply, which is for the lexis and the etymons as they are given
to decide. And a run of primitives goes on up to the first script that fails, if there is one. -/
theorem gates_decided_once (scripts : Option ScriptRunner) (source : Lexis) (w : Word) :
    (∀ ts : List Transform, runSteps source scripts (Transform.chain ts) w =
        Primitive.applyAll source scripts ((Transform.selected source ts).flatMap Transform.primitives) w) ∧
      (∀ (ts : List Transform) t, t ∈ Transform.selected source ts ↔
        t ∈ ts ∧ ∀ p, t.conditional = some p → p.holds source = true) ∧
      (∀ (rules : List GlobalRule) etymons, GlobalRule.applyAll source etymons scripts rules w =
        runSteps source scripts
          (Primitive.ungated ((GlobalRule.selected source etymons rules).flatMap GlobalRule.primitives)) w) ∧
      (∀ (rules : List GlobalRule) etymons r, r ∈ GlobalRule.selected source etymons rules ↔
        r ∈ rules ∧ (∀ p, r.lexis = some p → p.holds source = true) ∧ ∀ c, r.etymon = some c → c.Met etymons) ∧
      ∀ ps fault, Primitive.applyAll source scripts ps w = .error fault ↔
        ∃ before file after v, ps = before ++ .script file :: after ∧
          Primitive.applyAll source scripts before w = .ok v ∧
          ScriptRunner.apply scripts file v.text source = .error fault := by
  refine ⟨fun ts => Transform.runSteps_chain_eq_applyAll source scripts ts w, ?_, ?_, ?_, ?_⟩
  · intro ts t
    rw [Transform.selected, List.mem_filter, Predicate.holdsOpt_iff]
  · intro rules etymons
    rw [Primitive.runSteps_ungated, GlobalRule.applyAll_eq_applyAll]
  · intro rules etymons r
    rw [GlobalRule.selected, List.mem_filter, GlobalRule.appliesTo_iff]
  · exact fun ps fault => Primitive.applyAll_eq_error_iff

/-- A transform asks for the word that the source has, although the one before it has made another of it. -/
example :
    let source : Lexis := { id := "boat", word := some ⟨["k", "a"]⟩ }
    let ending := fun letter word => (⟨"", [.append ⟨[letter]⟩], some (.field .word (.equals word))⟩ : Transform)
    let soften : Transform := ⟨"", [.letterReplace ⟨["k"]⟩ ⟨["g"]⟩ .all], none⟩
    runSteps source none (Transform.chain [soften, ending "t" "ka", ending "s" "ga"]) ⟨["k", "a"]⟩ =
      .ok ⟨["g", "a", "t"]⟩ :=
  rfl

end Etymology
