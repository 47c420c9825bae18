import Etymology.Fault
import Mathlib.Data.List.Forall2

namespace Etymology

theorem bind_eq_ok {ε α β : Type} {x : Except ε α} {f : α → Except ε β} {b : β} :
    (x >>= f) = .ok b ↔ ∃ a, x = .ok a ∧ f a = .ok b := by
  cases x with
  | error e => exact ⟨nofun, fun ⟨_, read, _⟩ => nomatch read⟩
  | ok a => exact ⟨fun run => ⟨a, rfl, run⟩, fun ⟨_, read, run⟩ => Except.ok.inj read ▸ run⟩

theorem map_eq_ok {ε α β : Type} {x : Except ε α} {f : α → β} {b : β} :
    x.map f = .ok b ↔ ∃ a, x = .ok a ∧ b = f a := by
  cases x with
  | error e => exact ⟨nofun, fun ⟨_, read, _⟩ => nomatch read⟩
  | ok a =>
    constructor
    · rintro ⟨⟩
      exact ⟨a, rfl, rfl⟩
    · rintro ⟨_, ⟨⟩, rfl⟩
      rfl

theorem exists_bind_eq_ok {ε α β : Type} {x : Except ε α} {f : α → Except ε β} :
    (∃ b, (x >>= f) = .ok b) ↔ ∃ a, x = .ok a ∧ ∃ b, f a = .ok b := by
  simp only [bind_eq_ok]
  exact ⟨fun ⟨b, a, first, next⟩ => ⟨a, first, b, next⟩, fun ⟨a, first, b, next⟩ => ⟨b, a, first, next⟩⟩

theorem exists_map_eq_ok {ε α β : Type} {x : Except ε α} {f : α → β} :
    (∃ b, x.map f = .ok b) ↔ ∃ a, x = .ok a := by
  cases x with
  | error e => exact ⟨nofun, nofun⟩
  | ok a => exact ⟨fun _ => ⟨a, rfl⟩, fun _ => ⟨f a, rfl⟩⟩

theorem exists_pure_eq_ok {ε α : Type} {a : α} : (∃ b, (pure a : Except ε α) = .ok b) ↔ True :=
  iff_true_intro ⟨a, rfl⟩

/-- A step for each of a list succeeds where each of them does. -/
theorem exists_mapM_eq_ok {ε α β : Type} {f : α → Except ε β} {l : List α} :
    (∃ bs, l.mapM f = .ok bs) ↔ ∀ a ∈ l, ∃ b, f a = .ok b := by
  induction l with
  | nil => simp [pure, Except.pure]
  | cons a l ih =>
    rw [List.mapM_cons, exists_bind_eq_ok, List.forall_mem_cons, ← ih]
    constructor
    · rintro ⟨b, here, rest⟩
      obtain ⟨bs, later, -⟩ := exists_bind_eq_ok.mp rest
      exact ⟨⟨b, here⟩, bs, later⟩
    · rintro ⟨⟨b, here⟩, bs, later⟩
      exact ⟨b, here, exists_bind_eq_ok.mpr ⟨bs, later, _, rfl⟩⟩

/-- A step for each of a list has come to what each of them comes to. -/
theorem mapM_eq_ok_iff {ε α β : Type} {f : α → Except ε β} {l : List α} {bs : List β} :
    l.mapM f = .ok bs ↔ List.Forall₂ (fun a b => f a = .ok b) l bs := by
  induction l generalizing bs with
  | nil =>
    rw [List.forall₂_nil_left_iff, List.mapM_nil]
    exact ⟨fun same => (Except.ok.inj same).symm, fun same => congrArg Except.ok same.symm⟩
  | cons a l ih =>
    simp only [List.mapM_cons, bind_eq_ok, List.forall₂_cons_left_iff, ← ih]
    constructor
    · rintro ⟨b, here, rest, later, same⟩
      exact ⟨b, rest, here, later, (Except.ok.inj same).symm⟩
    · rintro ⟨b, rest, here, later, same⟩
      exact ⟨b, here, rest, later, congrArg Except.ok same.symm⟩

/-- Steps that do no more than check leave what each makes of its item. -/
theorem mapM_eq_ok_map_iff {ε α β : Type} {f : α → Except ε β} {make : α → β} {Fine : α → Prop}
    (each : ∀ a b, f a = .ok b ↔ Fine a ∧ b = make a) {l : List α} {bs : List β} :
    l.mapM f = .ok bs ↔ (∀ a ∈ l, Fine a) ∧ bs = l.map make := by
  rw [mapM_eq_ok_iff]
  induction l generalizing bs with
  | nil => simp
  | cons a l ih =>
    simp only [List.forall₂_cons_left_iff, ih, List.forall_mem_cons, List.map_cons]
    simp only [each]
    constructor
    · rintro ⟨_, _, ⟨here, rfl⟩, ⟨later, rfl⟩, rfl⟩
      exact ⟨⟨here, later⟩, rfl⟩
    · rintro ⟨⟨here, later⟩, rfl⟩
      exact ⟨_, _, ⟨here, rfl⟩, ⟨later, rfl⟩, rfl⟩

theorem mem_of_mapM_eq_ok {ε α β : Type} {f : α → Except ε β} {l : List α} {bs : List β} {b : β}
    (run : l.mapM f = .ok bs) (member : b ∈ bs) : ∃ a ∈ l, f a = .ok b := by
  have each := mapM_eq_ok_iff.mp run
  induction each with
  | nil => cases member
  | cons here rest ih =>
    rcases List.mem_cons.mp member with rfl | later
    · exact ⟨_, List.mem_cons_self, here⟩
    · obtain ⟨a, among, there⟩ := ih (mapM_eq_ok_iff.mpr rest) later
      exact ⟨a, List.mem_cons_of_mem _ among, there⟩

theorem Option.mapM_eq_some_iff {α β : Type} {f : α → Option β} {l : List α} {bs : List β} :
    l.mapM f = some bs ↔ List.Forall₂ (fun a b => f a = some b) l bs := by
  induction l generalizing bs with
  | nil =>
    rw [List.forall₂_nil_left_iff, List.mapM_nil]
    exact ⟨fun same => (Option.some.inj same).symm, fun same => congrArg some same.symm⟩
  | cons a l ih =>
    simp only [List.mapM_cons, Option.bind_eq_bind, Option.bind_eq_some_iff, List.forall₂_cons_left_iff, ← ih]
    constructor
    · rintro ⟨b, here, rest, later, same⟩
      exact ⟨b, rest, here, later, (Option.some.inj same).symm⟩
    · rintro ⟨b, rest, here, later, same⟩
      exact ⟨b, here, rest, later, congrArg some same.symm⟩

theorem exists_of_mem_mapM {α β : Type} {f : α → Option β} {l : List α} {bs : List β} {b : β}
    (run : l.mapM f = some bs) (member : b ∈ bs) : ∃ a ∈ l, f a = some b := by
  have each := Option.mapM_eq_some_iff.mp run
  clear run
  induction each with
  | nil => cases member
  | cons here _ ih =>
    rw [List.exists_mem_cons_iff]
    rcases List.mem_cons.mp member with rfl | later
    · exact .inl here
    · exact .inr (ih later)

theorem Option.mapM_eq_none_iff {α β : Type} {f : α → Option β} {l : List α} :
    l.mapM f = none ↔ ∃ a ∈ l, f a = none := by
  induction l with
  | nil => exact ⟨nofun, nofun⟩
  | cons a l ih =>
    rw [List.exists_mem_cons_iff, ← ih, List.mapM_cons]
    cases f a <;> cases l.mapM f <;> simp

theorem bind_eq_error {ε α β : Type} {x : Except ε α} {f : α → Except ε β} {e : ε} :
    (x >>= f) = .error e ↔ x = .error e ∨ ∃ a, x = .ok a ∧ f a = .error e := by
  cases x with
  | error first =>
    constructor
    · rintro ⟨⟩
      exact .inl rfl
    · rintro (⟨⟨⟩⟩ | ⟨_, ⟨⟩, _⟩)
      rfl
  | ok a =>
    constructor
    · exact fun failed => .inr ⟨a, rfl, failed⟩
    · rintro (⟨⟨⟩⟩ | ⟨_, ⟨⟩, failed⟩)
      exact failed

theorem Fault.orUnsuitable_eq_ok {α : Type} {a? : Option α} {a : α} :
    Fault.orUnsuitable a? = .ok a ↔ a? = some a := by
  cases a? with
  | none => exact ⟨nofun, nofun⟩
  | some b => exact ⟨fun same => congrArg some (Except.ok.inj same), fun same => congrArg Except.ok (Option.some.inj same)⟩

theorem mapError_eq_error {ε ε' α : Type} {x : Except ε α} {f : ε → ε'} {e' : ε'} :
    x.mapError f = .error e' ↔ ∃ e, x = .error e ∧ e' = f e := by
  cases x with
  | error e =>
    constructor
    · rintro ⟨⟩
      exact ⟨e, rfl, rfl⟩
    · rintro ⟨_, ⟨⟩, rfl⟩
      rfl
  | ok a => exact ⟨nofun, fun ⟨_, read, _⟩ => nomatch read⟩

theorem mapError_eq_ok {ε ε' α : Type} {x : Except ε α} {f : ε → ε'} {a : α} :
    x.mapError f = .ok a ↔ x = .ok a := by
  cases x with
  | error e => exact ⟨nofun, nofun⟩
  | ok b =>
    exact ⟨fun same => congrArg Except.ok (Except.ok.inj same), fun same => congrArg Except.ok (Except.ok.inj same)⟩

/-- A test evaluated on what a run comes to, read as a statement about it. -/
theorem exists_of_evaluated {ε α σ : Type} {run : Except ε α × σ} {holds : α → σ → Bool}
    (evaluated : run.1.toOption.any (holds · run.2) = true) : ∃ a s, run = (.ok a, s) ∧ holds a s = true := by
  obtain ⟨outcome, s⟩ := run
  cases outcome with
  | error e => cases evaluated
  | ok a => exact ⟨a, s, rfl, evaluated⟩

/-- A step fails with the fault that is named, and succeeds where none is. -/
def Reports {ε α : Type} (r : Except ε α) : Option ε → Prop
  | some e => r = .error e
  | none => ∃ a, r = .ok a

theorem Reports.eq_error_iff {ε α : Type} {r : Except ε α} {fault? : Option ε} (reports : Reports r fault?) {e : ε} :
    r = .error e ↔ fault? = some e := by
  cases fault? with
  | none =>
    obtain ⟨a, rfl⟩ := reports
    exact ⟨nofun, nofun⟩
  | some first =>
    obtain rfl : r = .error first := reports
    exact ⟨fun same => congrArg some (Except.error.inj same), fun same => congrArg Except.error (Option.some.inj same)⟩

theorem Reports.eq_ok_iff {ε α : Type} {r : Except ε α} {fault? : Option ε} (reports : Reports r fault?) :
    (∃ a, r = .ok a) ↔ fault? = none := by
  cases fault? with
  | none => exact ⟨fun _ => rfl, fun _ => reports⟩
  | some first =>
    obtain rfl : r = .error first := reports
    exact ⟨nofun, nofun⟩

theorem Reports.map {ε α β : Type} {r : Except ε α} {fault? : Option ε} (reports : Reports r fault?) (f : α → β) :
    Reports (f <$> r) fault? := by
  cases fault? with
  | none =>
    obtain ⟨a, rfl⟩ := reports
    exact ⟨f a, rfl⟩
  | some first =>
    obtain rfl : r = .error first := reports
    rfl

/-- Of two steps the second is taken where the first succeeds. -/
theorem Reports.andThen {ε α β γ : Type} {x : Except ε α} {y : Except ε β} {x? y? : Option ε} (first : Reports x x?)
    (second : Reports y y?) (f : α → β → γ) : Reports (do let a ← x; let b ← y; return f a b) (x?.or y?) := by
  cases x? with
  | some fault =>
    obtain rfl : x = .error fault := first
    rfl
  | none =>
    obtain ⟨a, rfl⟩ := first
    exact second.map (f a)

/-- A run that goes on after no mistake, with what it has come to in place of the state. -/
def settle {σ : Type} (r : σ × Except Fault Unit) : Except Fault σ :=
  r.2.map fun _ => r.1

theorem settle_eq_ok {σ : Type} {r : σ × Except Fault Unit} {s : σ} : settle r = .ok s ↔ r = (s, .ok ()) := by
  obtain ⟨t, outcome⟩ := r
  cases outcome with
  | error fault => exact ⟨nofun, nofun⟩
  | ok u =>
    constructor
    · intro same
      cases same
      rfl
    · intro same
      cases same
      rfl

/-- The loop comes to its result in so many turns. -/
inductive EndsIn {σ ρ : Type} (turn : σ → σ ⊕ ρ) : Nat → σ → ρ → Prop
  | result {s r} : turn s = .inr r → EndsIn turn 1 s r
  | next {s t r n} : turn s = .inl t → EndsIn turn n t r → EndsIn turn (n + 1) s r

/-- What every turn keeps holds up to the last, which gives the result. -/
theorem EndsIn.invariant {σ ρ : Type} {turn : σ → σ ⊕ ρ} {Holds : σ → Prop} {Final : ρ → Prop}
    (kept : ∀ s t, turn s = .inl t → Holds s → Holds t) (last : ∀ s r, turn s = .inr r → Holds s → Final r)
    {n : Nat} {s : σ} {r : ρ} (ends : EndsIn turn n s r) (start : Holds s) : Final r := by
  induction ends with
  | result step => exact last _ _ step start
  | next step _ ih => exact ih (kept _ _ step start)

/-- A loop comes to a result where every turn that leads on takes something away. -/
theorem exists_endsIn {σ ρ : Type} {turn : σ → σ ⊕ ρ} (weight : σ → Nat)
    (lighter : ∀ s t, turn s = .inl t → weight t < weight s) (s : σ) :
    ∃ n ≤ weight s + 1, ∃ r, EndsIn turn n s r := by
  induction bound : weight s using Nat.strongRecOn generalizing s with
  | ind w ih =>
    cases step : turn s with
    | inr r => exact ⟨1, by omega, r, .result step⟩
    | inl t =>
      have less := lighter s t step
      obtain ⟨n, few, r, ends⟩ := ih (weight t) (bound ▸ less) t rfl
      exact ⟨n + 1, by omega, r, .next step ends⟩

end Etymology
