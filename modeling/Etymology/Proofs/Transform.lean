import Etymology.Proofs.Pipeline
import Etymology.Proofs.Predicate.Grammar
import Etymology.Proofs.Primitive.Escape

namespace Etymology

/-- The first fault of a condition asks for the text of a value that has none. -/
def Conditional.Untellable (v : Value) : Prop :=
  firstFault? v = some .unsuitable

theorem Conditional.Untellable.untold {v : Value} (untellable : Untellable v) : v.Untold := by
  rcases firstFault?_cases untellable with ⟨field, same⟩ | ⟨cause, same⟩ | ⟨-, untold⟩
  · cases same
  · cases same
  · exact untold

theorem Predicate.ofValue_escapes (v : Value) :
    Escapes (Misdefined none) (Predicate.ofValue v) (Conditional.Untellable v) := by
  by_cases present : v = .null
  · subst present
    exact (Escapes.ok none).congr (iff_of_false not_false nofun)
  · have reports := Conditional.ofValue_reports v present
    refine ⟨reports.eq_error_iff, fun fault failed => ?_⟩
    rcases Conditional.firstFault?_cases (reports.eq_error_iff.mp failed) with ⟨field, rfl⟩ | ⟨cause, rfl⟩ | ⟨rfl, -⟩
    · exact .inr (.unknownField field)
    · exact .inr (.malformed cause)
    · exact .inl rfl

theorem Predicate.ofValue_ok_iff {v : Value} :
    (∃ p?, Predicate.ofValue v = .ok p?) ↔ v = .null ∨ Conditional.Document v := by
  by_cases present : v = .null
  · subst present
    exact ⟨fun _ => .inl rfl, fun _ => ⟨none, rfl⟩⟩
  · rw [(Conditional.ofValue_reports v present).eq_ok_iff, ← Conditional.document_iff, or_iff_right present]

namespace Transform

/-- What defines a transform: documents of primitives in a list, which may stand beside a condition in a mapping. -/
inductive Definition : Value → Prop
  | bare {items} : (∀ v ∈ items, Primitive.Document v) → Definition (.list items)
  | mapping {entries : Entries} {items} : entries.getD "transforms" = .list items →
      (∀ v ∈ items, Primitive.Document v) →
      entries.getD "conditional" = .null ∨ Conditional.Document (entries.getD "conditional") →
      Definition (.mapping entries)

/-- What is wrong with a definition cannot be told: one of its primitives has such a fault and those before it have none,
or its condition has one. -/
inductive Untellable : Value → Prop
  | bare {items} : Meets Primitive.Document Primitive.Untellable items → Untellable (.list items)
  | primitive {entries : Entries} {items} : entries.getD "transforms" = .list items →
      Meets Primitive.Document Primitive.Untellable items → Untellable (.mapping entries)
  | condition {entries : Entries} {items} : entries.getD "transforms" = .list items →
      (∀ v ∈ items, Primitive.Document v) → Conditional.Untellable (entries.getD "conditional") →
      Untellable (.mapping entries)

theorem ofParts_ok_iff {primitives conditional : Value} : (∃ parts, ofParts primitives conditional = .ok parts) ↔
    ∃ items, primitives = .list items ∧ (∀ v ∈ items, Primitive.Document v) ∧
      (conditional = .null ∨ Conditional.Document conditional) := by
  cases primitives with
  | scalar s => exact ⟨nofun, nofun⟩
  | mapping entries => exact ⟨nofun, nofun⟩
  | list items =>
    simp only [ofParts, exists_bind_eq_ok, exists_pure_eq_ok, and_true, exists_and_right, exists_mapM_eq_ok,
      Primitive.ofValue_ok_iff, Predicate.ofValue_ok_iff, Value.list.injEq, exists_eq_left']

theorem ofParts_escapes (primitives conditional : Value) : Escapes (Misdefined none) (ofParts primitives conditional)
    (∃ items, primitives = .list items ∧ (Meets Primitive.Document Primitive.Untellable items ∨
      (∀ v ∈ items, Primitive.Document v) ∧ Conditional.Untellable conditional)) := by
  cases primitives with
  | scalar s => exact .malformed nofun
  | mapping entries => exact .malformed nofun
  | list items =>
    refine Escapes.congr (.bind_alike (.mapM Primitive.ofValue_escapes (fun _ => Primitive.ofValue_ok_iff) items)
      fun ps => (Predicate.ofValue_escapes conditional).bind_expected fun p? => .ok (ps, p?)) ?_
    simp only [exists_mapM_eq_ok, Primitive.ofValue_ok_iff, Value.list.injEq, exists_eq_left']

theorem blame_eq_unsuitable (name : String) {fault : Fault} : blame name fault = .unsuitable ↔ fault = .unsuitable := by
  unfold blame
  split
  · simp
  · rfl

theorem misdefined_blame {name : String} {fault : Fault} (told : Misdefined none fault) :
    Misdefined (some name) (blame name fault) := by
  cases told with
  | unknownField field => exact .unknownField field
  | malformed cause => exact .malformed cause

theorem ofValue_list (name : String) (items : List Value) :
    ofValue name (.list items) =
      ((ofParts (.list items) .null).map fun parts => ⟨name, parts.1, parts.2⟩).mapError (blame name) := by
  simp only [ofValue]
  cases ofParts (.list items) .null <;> rfl

theorem ofValue_mapping (name : String) (entries : Entries) :
    ofValue name (.mapping entries) = ((ofParts (entries.getD "transforms") (entries.getD "conditional")).map
      fun parts => ⟨name, parts.1, parts.2⟩).mapError (blame name) := by
  simp only [ofValue]
  cases ofParts (entries.getD "transforms") (entries.getD "conditional") <;> rfl

/-- Reading accepts the definitions of transforms and no other values. -/
theorem ofValue_ok_iff {name : String} {v : Value} : (∃ t, ofValue name v = .ok t) ↔ Definition v := by
  cases v with
  | scalar s => exact ⟨nofun, nofun⟩
  | list items =>
    simp only [ofValue_list, mapError_eq_ok, exists_map_eq_ok, ofParts_ok_iff]
    exact ⟨fun ⟨_, same, each, _⟩ => .bare (Value.list.inj same ▸ each),
      fun | .bare each => ⟨items, rfl, each, .inl trivial⟩⟩
  | mapping entries =>
    simp only [ofValue_mapping, mapError_eq_ok, exists_map_eq_ok, ofParts_ok_iff]
    exact ⟨fun ⟨_, under, each, condition⟩ => .mapping under each condition,
      fun | .mapping under each condition => ⟨_, under, each, condition⟩⟩

/-- A definition is refused for an unknown field in its condition, or as malformed under its own name, unless this cannot
be told. -/
theorem ofValue_escapes (name : String) (v : Value) :
    Escapes (Misdefined (some name)) (ofValue name v) (Untellable v) := by
  have retold {primitives conditional : Value} {f : List Primitive × Option Predicate → Transform} :=
    (ofParts_escapes primitives conditional).map (f := f) |>.retold (fun _ => blame_eq_unsuitable name)
      fun _ => misdefined_blame
  cases v with
  | scalar s => exact .malformed nofun
  | list items =>
    rw [ofValue_list]
    refine retold.congr ⟨?_, ?_⟩
    · rintro ⟨_, ⟨⟩, meets | ⟨-, untellable⟩⟩
      · exact .bare meets
      · cases untellable
    · rintro (meets | _ | _)
      exact ⟨items, rfl, .inl meets⟩
  | mapping entries =>
    rw [ofValue_mapping]
    refine retold.congr ⟨?_, ?_⟩
    · rintro ⟨items, list, meets | ⟨fine, untellable⟩⟩
      · exact .primitive list meets
      · exact .condition list fine untellable
    · rintro (_ | ⟨list, meets⟩ | ⟨list, fine, untellable⟩)
      · exact ⟨_, list, .inl meets⟩
      · exact ⟨_, list, .inr ⟨fine, untellable⟩⟩

theorem Untellable.untold {v : Value} (untellable : Untellable v) : v.Untold := by
  have listed {items : List Value} (meets : Meets Primitive.Document Primitive.Untellable items) :
      (Value.list items).Untold := by
    obtain ⟨item, member, inside⟩ := meets.exists_mem
    exact .item member inside.untold
  cases untellable with
  | bare meets => exact listed meets
  | primitive list meets => exact Value.untold_of_getD (list.symm ▸ listed meets)
  | condition _ _ inside => exact Value.untold_of_getD inside.untold

theorem name_of_ofValue {name : String} {v : Value} {t : Transform} (read : ofValue name v = .ok t) :
    t.name = name := by
  simp only [ofValue] at read
  split at read <;> cases read
  rfl

/-- A value that defines a transform is read, and what is read makes a word of every word, whatever lexis this
comes from; only a script that is reached under its condition may fail then. Any other value is refused at once, for an
unknown field or as malformed under its name, unless its first fault has to be told by an integer that has no text. -/
theorem ofValue_reads_or_refuses (name : String) (v : Value) :
    ((∃ t, ofValue name v = .ok t) ↔ Definition v) ∧
      (∀ t, ofValue name v = .ok t → t.name = name ∧
        ∀ (w : Word) (source : Lexis) (scripts : Option ScriptRunner),
          (∃ u, runSteps source scripts t.steps w = .ok u) ∨
            ∃ lexis file cause, runSteps source scripts t.steps w = .error (.scriptFailed lexis file cause) ∧
              HaltedBy source scripts t.steps w (.scriptFailed lexis file cause)) ∧
      (∀ fault, ofValue name v = .error fault → (∃ cause, fault = .malformed cause (some name)) ∨
        (∃ field, fault = .unknownField field) ∨ fault = .unsuitable ∧ v.Untold) ∧
      (ofValue name v = .error .unsuitable ↔ Untellable v) := by
  have escapes := ofValue_escapes name v
  refine ⟨ofValue_ok_iff, fun t read => ⟨name_of_ofValue read, fun w source scripts => ?_⟩, fun fault failed => ?_,
    escapes.unsuitable⟩
  · cases run : runSteps source scripts t.steps w with
    | ok u => exact .inl ⟨u, rfl⟩
    | error fault =>
      obtain ⟨-, -, -, file, u, -, -, -, -, ran⟩ := runSteps_eq_error_iff.mp run
      obtain ⟨lexis, place, cause, rfl⟩ := ScriptRunner.apply_error ran
      exact .inr ⟨lexis, place, cause, rfl, runSteps_eq_error_iff.mp run⟩
  · rcases escapes.told fault failed with rfl | told
    · exact .inr (.inr ⟨rfl, (escapes.unsuitable.mp failed).untold⟩)
    · cases told with
      | unknownField field => exact .inr (.inl ⟨field, rfl⟩)
      | malformed cause => exact .inl ⟨cause, rfl⟩

theorem ofValue_overlong (name : String) {n : Int} (long : Overlong n) :
    ofValue name (.list [.int n]) = .error .unsuitable := by
  have whole : Primitive.Untellable (.int n) := .whole (fun _ same => nomatch same) (.int long)
  exact (ofValue_escapes name _).unsuitable.mpr (.bare (.here whole))

/-- A number of 4301 digits in the place of a primitive is neither read nor told. -/
theorem ofValue_ten_pow : ofValue "t" (.list [.int (10 ^ 4300)]) = .error .unsuitable :=
  ofValue_overlong "t" overlong_ten_pow

end Transform

end Etymology
