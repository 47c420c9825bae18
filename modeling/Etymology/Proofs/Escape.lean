import Etymology.Proofs.Document.Numeral

namespace Etymology

/-- The faults that tell what is wrong with a definition, by the name that it has, if any. -/
inductive Misdefined (transform : Option String) : Fault → Prop
  | unknownField (field : String) : Misdefined transform (.unknownField field)
  | malformed (cause : Malformation) : Misdefined transform (.malformed cause transform)

/-- The faults that tell what is wrong with a definition or with a document. -/
inductive Refused : Fault → Prop
  | unknownField (field : String) : Refused (.unknownField field)
  | malformed (cause : Malformation) (transform : Option String) : Refused (.malformed cause transform)
  | document (cause : DocumentFault) : Refused (.document cause)

theorem Misdefined.refused {transform : Option String} {fault : Fault} (told : Misdefined transform fault) :
    Refused fault := by
  cases told with
  | unknownField field => exact .unknownField field
  | malformed cause => exact .malformed cause transform

/-- A step fails for a value that has no meaning at its place exactly under a condition, and otherwise with faults
of certain kinds alone. -/
structure Escapes {α : Type} (kinds : Fault → Prop) (r : Except Fault α) (bare : Prop) : Prop where
  unsuitable : r = .error .unsuitable ↔ bare
  told : ∀ fault, r = .error fault → fault = .unsuitable ∨ kinds fault

namespace Escapes

variable {ε α β : Type} {kinds : Fault → Prop} {bare : Prop}

theorem ok (a : α) : Escapes kinds (.ok a) False :=
  ⟨⟨nofun, nofun⟩, nofun⟩

theorem fault {fault : Fault} (told : kinds fault) (other : fault ≠ .unsuitable) (never : ¬ bare) :
    Escapes kinds (.error fault : Except Fault α) bare :=
  ⟨⟨fun same => (other (Except.error.inj same)).elim, fun holds => (never holds).elim⟩,
    fun _ same => .inr (Except.error.inj same ▸ told)⟩

theorem refused {fault : Fault} (told : Refused fault) (never : ¬ bare) :
    Escapes Refused (.error fault : Except Fault α) bare :=
  .fault told (fun same => nomatch same ▸ told) never

theorem malformed {cause : Malformation} {transform : Option String} (never : ¬ bare) :
    Escapes (Misdefined transform) (.error (.malformed cause transform) : Except Fault α) bare :=
  .fault (.malformed cause) nofun never

/-- A fault that tells a value by its text is replaced where the value has none. -/
theorem telling {text? : Option String} {make : String → Fault} (told : ∀ t, kinds (make t))
    (other : ∀ t, make t ≠ .unsuitable) : Escapes kinds (.error (.telling text? make) : Except Fault α) (text? = none) := by
  cases text? with
  | none => exact ⟨⟨fun _ => rfl, fun _ => rfl⟩, fun _ same => .inl (Except.error.inj same).symm⟩
  | some t => exact .fault (told t) (other t) nofun

theorem orUnsuitable {a? : Option α} : Escapes kinds (Fault.orUnsuitable a?) (a? = none) := by
  cases a? with
  | none => exact ⟨⟨fun _ => rfl, fun _ => rfl⟩, fun _ same => .inl (Except.error.inj same).symm⟩
  | some a => exact ⟨⟨nofun, nofun⟩, nofun⟩

theorem escaped (holds : bare) : Escapes kinds (.error .unsuitable : Except Fault α) bare :=
  ⟨⟨fun _ => holds, fun _ => rfl⟩, fun _ same => .inl (Except.error.inj same).symm⟩

theorem not_of_ok {r : Except Fault α} {a : α} (escapes : Escapes kinds r bare) (ran : r = .ok a) : ¬ bare := by
  intro holds
  rw [escapes.unsuitable.mpr holds] at ran
  cases ran

theorem congr {r : Except Fault α} {bare' : Prop} (escapes : Escapes kinds r bare) (same : bare ↔ bare') :
    Escapes kinds r bare' :=
  ⟨escapes.unsuitable.trans same, escapes.told⟩

theorem mono {r : Except Fault α} {more : Fault → Prop} (escapes : Escapes kinds r bare)
    (wider : ∀ fault, kinds fault → more fault) : Escapes more r bare :=
  ⟨escapes.unsuitable, fun fault failed => (escapes.told fault failed).imp_right (wider fault)⟩

/-- Whatever fails in the same way fails for the same reason. -/
theorem error {x : Except Fault α} {cause : Fault} (first : Escapes kinds x bare) (failed : x = .error cause) :
    Escapes kinds (.error cause : Except Fault β) bare := by
  subst failed
  refine ⟨?_, fun fault same => first.told fault (congrArg _ (Except.error.inj same))⟩
  rw [← first.unsuitable, Except.error.injEq, Except.error.injEq]

theorem bind {x : Except Fault α} {f : α → Except Fault β} {next : α → Prop} (first : Escapes kinds x bare)
    (later : ∀ a, x = .ok a → Escapes kinds (f a) (next a)) :
    Escapes kinds (x >>= f) (bare ∨ ∃ a, x = .ok a ∧ next a) := by
  constructor
  · rw [bind_eq_error, first.unsuitable]
    refine or_congr_right (exists_congr fun a => and_congr_right fun run => ?_)
    exact (later a run).unsuitable
  · intro fault failed
    rcases bind_eq_error.mp failed with here | ⟨a, run, there⟩
    · exact first.told fault here
    · exact (later a run).told fault there

/-- What comes after a step does not depend on what this has come to. -/
theorem bind_alike {x : Except Fault α} {f : α → Except Fault β} {next : Prop} (first : Escapes kinds x bare)
    (later : ∀ a, Escapes kinds (f a) next) : Escapes kinds (x >>= f) (bare ∨ (∃ a, x = .ok a) ∧ next) :=
  (first.bind fun a _ => later a).congr (by rw [exists_and_right])

/-- A check is followed by what it lets pass. -/
theorem bind_checked {x : Except Fault α} {f : α → Except Fault β} {next : Prop} (check : Escapes kinds x False)
    (later : ∀ a, Escapes kinds (f a) next) : Escapes kinds (x >>= f) ((∃ a, x = .ok a) ∧ next) :=
  (check.bind_alike later).congr (by rw [false_or])

/-- A step that can only fail for a value without a meaning stands in the way of no other such failure. -/
theorem bind_plain {x : Except Fault α} {f : α → Except Fault β} {next : Prop}
    (first : Escapes (fun _ => False) x bare) (later : ∀ a, Escapes kinds (f a) next) :
    Escapes kinds (x >>= f) (bare ∨ next) := by
  cases x with
  | ok a => exact (later a).congr (by simp [first.not_of_ok rfl])
  | error fault =>
    obtain rfl | ⟨⟨⟩⟩ := first.told fault rfl
    exact .escaped (.inl (first.unsuitable.mp rfl))

/-- A step that is followed by others that expect every value. -/
theorem bind_expected {x : Except Fault α} {f : α → Except Fault β} (first : Escapes kinds x bare)
    (later : ∀ a, Escapes kinds (f a) False) : Escapes kinds (x >>= f) bare :=
  (first.bind fun a _ => later a).congr (by simp)

theorem mapError {x : Except ε α} {f : ε → Fault} (told : ∀ e, Refused (f e)) :
    Escapes Refused (x.mapError f) False := by
  cases x with
  | error e => exact refused (told e) id
  | ok a => exact ok a

theorem map {x : Except Fault α} {f : α → β} (escapes : Escapes kinds x bare) : Escapes kinds (x.map f) bare := by
  cases x with
  | error cause => exact escapes.error rfl
  | ok a => exact (ok (f a)).congr (iff_of_false not_false (escapes.not_of_ok rfl))

/-- Faults may be told in other words. -/
theorem retold {x : Except Fault α} {f : Fault → Fault} {others : Fault → Prop} (escapes : Escapes kinds x bare)
    (same : ∀ fault, f fault = .unsuitable ↔ fault = .unsuitable) (kept : ∀ fault, kinds fault → others (f fault)) :
    Escapes others (x.mapError f) bare := by
  constructor
  · simp only [mapError_eq_error, eq_comm (a := Fault.unsuitable), same, exists_eq_right, escapes.unsuitable]
  · intro told failed
    obtain ⟨fault, first, rfl⟩ := mapError_eq_error.mp failed
    exact (escapes.told fault first).imp (same fault).mpr (kept fault)

end Escapes

theorem escapes_settle {σ : Type} {kinds : Fault → Prop} {r : σ × Except Fault Unit} {bare : Prop} :
    Escapes kinds (settle r) bare ↔ Escapes kinds r.2 bare := by
  obtain ⟨s, outcome⟩ := r
  cases outcome with
  | error fault => exact ⟨fun escapes => escapes.error rfl, fun escapes => escapes.error rfl⟩
  | ok u =>
    constructor
    · intro escapes
      exact escapes.map (f := fun _ => ())
    · intro escapes
      exact escapes.map

section Loops

variable {σ α β : Type} {step : σ → α → Except Fault σ} {odd : σ → α → Prop}

/-- A loop comes to an item that is odd in the state that it comes to it in. -/
inductive Reaches (step : σ → α → Except Fault σ) (odd : σ → α → Prop) : List α → σ → Prop
  | here {a l s} : odd s a → Reaches step odd (a :: l) s
  | later {a l s t} : step s a = .ok t → Reaches step odd l t → Reaches step odd (a :: l) s

theorem not_reaches_nil {s : σ} : ¬ Reaches step odd [] s :=
  nofun

theorem reaches_cons {a : α} {l : List α} {s : σ} :
    Reaches step odd (a :: l) s ↔ odd s a ∨ ∃ t, step s a = .ok t ∧ Reaches step odd l t := by
  constructor
  · intro reaches
    cases reaches with
    | here first => exact .inl first
    | later run rest => exact .inr ⟨_, run, rest⟩
  · rintro (first | ⟨t, run, rest⟩)
    · exact .here first
    · exact .later run rest

theorem Escapes.foldlM {kinds : Fault → Prop} (each : ∀ s a, Escapes kinds (step s a) (odd s a)) (l : List α) (s : σ) :
    Escapes kinds (l.foldlM step s) (Reaches step odd l s) := by
  induction l generalizing s with
  | nil => exact (Escapes.ok s).congr (iff_of_false not_false not_reaches_nil)
  | cons a l ih =>
    rw [List.foldlM_cons, reaches_cons]
    exact (each s a).bind fun t _ => ih t

/-- One of some items is odd, and those before it are read. -/
inductive Meets (reads odd : α → Prop) : List α → Prop
  | here {a l} : odd a → Meets reads odd (a :: l)
  | later {a l} : reads a → Meets reads odd l → Meets reads odd (a :: l)

theorem not_meets_nil {reads odd : α → Prop} : ¬ Meets reads odd [] :=
  nofun

theorem meets_cons {reads odd : α → Prop} {a : α} {l : List α} :
    Meets reads odd (a :: l) ↔ odd a ∨ reads a ∧ Meets reads odd l := by
  constructor
  · intro meets
    cases meets with
    | here first => exact .inl first
    | later read rest => exact .inr ⟨read, rest⟩
  · rintro (first | ⟨read, rest⟩)
    · exact .here first
    · exact .later read rest

theorem Meets.exists_mem {reads odd : α → Prop} {l : List α} (meets : Meets reads odd l) : ∃ a ∈ l, odd a := by
  induction meets with
  | here first => exact ⟨_, List.mem_cons_self, first⟩
  | later _ _ ih =>
    obtain ⟨a, member, found⟩ := ih
    exact ⟨a, List.mem_cons_of_mem _ member, found⟩

theorem Escapes.mapM {kinds : Fault → Prop} {f : α → Except Fault β} {reads odd : α → Prop}
    (each : ∀ a, Escapes kinds (f a) (odd a)) (done : ∀ a, (∃ b, f a = .ok b) ↔ reads a) (l : List α) :
    Escapes kinds (l.mapM f) (Meets reads odd l) := by
  induction l with
  | nil => exact (Escapes.ok []).congr (iff_of_false not_false not_meets_nil)
  | cons a l ih =>
    rw [List.mapM_cons, meets_cons, ← done]
    exact (each a).bind_alike fun b => ih.bind_expected fun bs => .ok (b :: bs)

end Loops

end Etymology
