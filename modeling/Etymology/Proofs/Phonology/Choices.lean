import Etymology.Lexicon.Basic

namespace Etymology

/-- The second source of choices comes of the first by making choices. -/
structure Picks.Precedes (p q : Picks) : Prop where
  cycle_eq : q.cycle = p.cycle
  used_le : p.used ≤ q.used

namespace Picks.Precedes

theorem refl (p : Picks) : p.Precedes p := ⟨rfl, Nat.le_refl _⟩

theorem trans {p q r : Picks} (first : p.Precedes q) (second : q.Precedes r) : p.Precedes r :=
  ⟨second.cycle_eq.trans first.cycle_eq, Nat.le_trans first.used_le second.used_le⟩

end Picks.Precedes

section Choose

variable {α : Type} {p q : Picks} {l : List α} {a : α}

/-- There is always a member to pick from a list that has any. -/
theorem Picks.choose?_isSome (p : Picks) (filled : l ≠ []) : ∃ a q, p.choose? l = some (a, q) := by
  have inside : p.next % l.length < l.length := Nat.mod_lt _ (List.length_pos_iff.mpr filled)
  refine ⟨l[p.next % l.length], { p with used := p.used + 1 }, ?_⟩
  rw [choose?, List.getElem?_eq_getElem inside, Option.map_some]

theorem Picks.eq_of_choose? (picked : p.choose? l = some (a, q)) : q = { p with used := p.used + 1 } := by
  simp only [choose?, Option.map_eq_some_iff, Prod.mk.injEq] at picked
  obtain ⟨b, -, -, same⟩ := picked
  exact same.symm

theorem Picks.precedes_of_choose? (picked : p.choose? l = some (a, q)) : p.Precedes q := by
  rw [eq_of_choose? picked]
  exact ⟨rfl, Nat.le_succ _⟩

end Choose

namespace Generator

theorem precedes_expand (g : Generator) (picks : Picks) (letters : List String) (stack : List Pattern) :
    picks.Precedes (g.expand picks letters stack).2 := by
  fun_induction g.expand picks letters stack with
  | case1 picks letters => exact .refl picks
  | case2 picks letters outer ih => exact ih
  | case3 picks letters text pattern outer ih => exact ih
  | case4 picks => exact .refl picks
  | case5 picks => exact .refl picks
  | case6 picks => exact .refl picks
  | case7 picks => exact .refl picks
  | case8 picks letters symbol pattern outer alternatives found filled low alternative after picked ih =>
    exact (Picks.precedes_of_choose? picked).trans ih

/-- The choice of a shape comes before those of the expansion. -/
theorem precedes_of_shape {g : Generator} {key : String} {picks after : Picks} {shape : Pattern}
    (chosen : (g.shapes? key).bind picks.choose? = some (shape, after)) :
    after.Precedes (g.createWord key picks).2 := by
  have expanded := g.precedes_expand after [] [shape]
  unfold createWord
  rw [chosen]
  dsimp only
  split
  · next letters rest run => simpa only [run] using expanded
  · next fault rest run => simpa only [run] using expanded

theorem precedes_createWord (g : Generator) (key : String) (picks : Picks) :
    picks.Precedes (g.createWord key picks).2 := by
  cases chosen : (g.shapes? key).bind picks.choose? with
  | none =>
    unfold createWord
    rw [chosen]
    exact .refl picks
  | some pair =>
    obtain ⟨shape, after⟩ := pair
    obtain ⟨shapes, -, picked⟩ := Option.bind_eq_some_iff.mp chosen
    exact (Picks.precedes_of_choose? picked).trans (precedes_of_shape chosen)

theorem precedes_createWordFor (g : Generator) (key : Value) (picks : Picks) :
    picks.Precedes (g.createWordFor key picks).2 := by
  unfold createWordFor
  split
  · exact g.precedes_createWord _ picks
  · exact .refl picks
  · exact .refl picks

/-- A word that a key gives is the expansion of one of the shapes of its type. -/
theorem createWordFor_ok {g : Generator} {key : Value} {picks after : Picks} {w : Word}
    (run : g.createWordFor key picks = (.ok w, after)) :
    ∃ s shapes shape next, key = .scalar (.text s) ∧ g.shapes? s = some shapes ∧
      picks.choose? shapes = some (shape, next) ∧ g.expand next [] [shape] = (.ok w.letters, after) := by
  unfold createWordFor at run
  split at run
  · next s =>
    unfold createWord at run
    split at run
    · cases run
    · next shape next chosen =>
      obtain ⟨shapes, found, picked⟩ := Option.bind_eq_some_iff.mp chosen
      split at run
      · next letters last expanded =>
        cases run
        exact ⟨s, shapes, shape, next, rfl, found, picked, expanded⟩
      · cases run
  · cases run
  · cases run

/-- A key that has given a word once is never looked up again without a choice. -/
theorem used_lt_createWordFor {g : Generator} {key : Value} {before after : Picks} {w : Word}
    (once : g.createWordFor key before = (.ok w, after)) (picks : Picks) :
    picks.used < (g.createWordFor key picks).2.used := by
  obtain ⟨s, shapes, _, _, rfl, found, member, -⟩ := createWordFor_ok once
  have filled : shapes ≠ [] := List.ne_nil_of_mem (Picks.mem_of_choose? member)
  obtain ⟨shape, next, picked⟩ := picks.choose?_isSome filled
  have counted : next.used = picks.used + 1 := by rw [Picks.eq_of_choose? picked]
  have chosen : (g.shapes? s).bind picks.choose? = some (shape, next) := by
    rw [found, Option.bind_some, picked]
  have further : next.used ≤ (g.createWord s picks).2.used := (precedes_of_shape chosen).used_le
  rw [createWordFor]
  omega

end Generator

theorem Lexicon.precedes_generated (l : Lexicon) (x : Lexis) (picks : Picks) :
    picks.Precedes (l.generated x picks).2 := by
  unfold generated
  split
  · exact .refl picks
  · split
    · exact .refl picks
    · exact Generator.precedes_createWordFor _ _ picks

/-- A word is generated by the generator of the lexicon, for the key of the lexis. -/
theorem Lexicon.generated_ok {l : Lexicon} {x : Lexis} {picks after : Picks} {w : Word}
    (run : l.generated x picks = (.ok w, after)) :
    ∃ g, l.generator = some g ∧ x.generate.isTruthy = true ∧
      g.createWordFor x.generate picks = (.ok w, after) := by
  unfold generated at run
  split at run
  · cases run
  · next truthy =>
    split at run
    · cases run
    · next g present => exact ⟨g, present, by simpa [Value.isTruthy] using truthy, run⟩

end Etymology
