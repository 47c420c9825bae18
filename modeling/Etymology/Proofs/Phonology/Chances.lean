import Etymology.Proofs.Phonology.Choices

namespace Etymology

/-- A member of a list is what some number picks from it, wherever that number stands in the cycle. -/
theorem Picks.exists_choose? {α : Type} {a : α} {l : List α} (member : a ∈ l) :
    ∃ n, ∀ before after : List Nat, Picks.choose? ⟨before ++ n :: after, before.length⟩ l =
      some (a, ⟨before ++ n :: after, before.length + 1⟩) := by
  obtain ⟨n, inside, here⟩ := List.mem_iff_getElem.mp member
  refine ⟨n, fun before after => ?_⟩
  have within : before.length < (before ++ n :: after).length := by simp
  have first : Picks.next ⟨before ++ n :: after, before.length⟩ = n := by
    rw [Picks.next, Nat.mod_eq_of_lt within]
    simp
  rw [choose?, first, Nat.mod_eq_of_lt inside, List.getElem?_eq_getElem inside, here, Option.map_some]

namespace Generator

/-- What may come of the patterns in progress, the innermost first, behind the letters found so far:
where a group is entered, each of its alternatives may be chosen. -/
inductive May (g : Generator) : List String → List Pattern → Except Fault (List String) → Prop
  | done {letters} : May g letters [] (.ok letters)
  | leave {letters outer r} : May g letters outer r → May g letters ([] :: outer) r
  | phoneme {letters text pattern outer r} : May g (letters ++ [text]) (pattern :: outer) r →
      May g letters ((.phoneme text :: pattern) :: outer) r
  | undeclared {letters symbol pattern outer} :
      (∀ alternatives, g.phonology.groups.get? symbol = some alternatives → alternatives = []) →
      May g letters ((.group symbol :: pattern) :: outer) (.error (.unknownSymbol (.text symbol) .group))
  | tooDeep {letters symbol pattern outer alternatives} :
      g.phonology.groups.get? symbol = some alternatives → alternatives ≠ [] →
      g.limit < outer.length + 1 →
      May g letters ((.group symbol :: pattern) :: outer) (.error (.tooDeep symbol g.limit))
  | enter {letters symbol pattern outer alternatives alternative r} :
      g.phonology.groups.get? symbol = some alternatives → outer.length + 1 ≤ g.limit →
      alternative ∈ alternatives → May g letters (alternative :: pattern :: outer) r →
      May g letters ((.group symbol :: pattern) :: outer) r

theorem may_expand (g : Generator) (picks : Picks) (letters : List String) (stack : List Pattern) :
    g.May letters stack (g.expand picks letters stack).1 := by
  fun_induction g.expand picks letters stack with
  | case1 => exact .done
  | case2 picks letters outer ih => exact .leave ih
  | case3 picks letters text pattern outer ih => exact .phoneme ih
  | case4 picks letters symbol pattern outer missing =>
    refine .undeclared fun alternatives found => ?_
    rw [missing] at found
    cases found
  | case5 picks letters symbol pattern outer alternatives found empty =>
    refine .undeclared fun others known => ?_
    rw [← Option.some.inj (found.symm.trans known)]
    exact List.isEmpty_iff.mp empty
  | case6 picks letters symbol pattern outer alternatives found filled deep =>
    exact .tooDeep found (fun empty => filled (List.isEmpty_iff.mpr empty)) deep
  | case7 picks letters symbol pattern outer alternatives found filled low unpicked =>
    obtain ⟨a, q, picked⟩ := picks.choose?_isSome fun empty => filled (List.isEmpty_iff.mpr empty)
    rw [unpicked] at picked
    cases picked
  | case8 picks letters symbol pattern outer alternatives found filled low alternative after picked ih =>
    exact .enter found (Int.not_lt.mp low) (Picks.mem_of_choose? picked) ih

/-- The choices behind an outcome can be made after any others, and whatever choices would follow. -/
theorem May.exists_picks {g : Generator} {letters : List String} {stack : List Pattern}
    {r : Except Fault (List String)} (may : g.May letters stack r) (before : List Nat) :
    ∃ more, ∀ after, (g.expand ⟨before ++ more ++ after, before.length⟩ letters stack).1 = r := by
  induction may generalizing before with
  | done => exact ⟨[], fun after => by rw [expand]⟩
  | leave _ ih =>
    obtain ⟨more, runs⟩ := ih before
    exact ⟨more, fun after => by rw [expand, runs]⟩
  | phoneme _ ih =>
    obtain ⟨more, runs⟩ := ih before
    exact ⟨more, fun after => by rw [expand, runs]⟩
  | undeclared missing =>
    refine ⟨[], fun after => ?_⟩
    rw [expand]
    split
    · rfl
    · next alternatives found => simp [missing alternatives found]
  | tooDeep found filled deep =>
    refine ⟨[], fun after => ?_⟩
    rw [expand]
    split <;> simp_all
  | @enter letters symbol pattern outer alternatives alternative r found low member _ ih =>
    obtain ⟨n, picks⟩ := Picks.exists_choose? member
    obtain ⟨more, runs⟩ := ih (before ++ [n])
    refine ⟨n :: more, fun after => ?_⟩
    have picked := picks before (more ++ after)
    have run := runs after
    simp only [List.append_assoc, List.cons_append, List.nil_append, List.length_append,
      List.length_singleton] at run ⊢
    have filled : alternatives.isEmpty = false := by
      simpa using List.ne_nil_of_mem member
    rw [expand]
    split
    · simp_all
    · next others known =>
      obtain rfl := Option.some.inj (found.symm.trans known)
      rw [if_neg (by simp [filled]), if_neg (Int.not_lt.mpr low)]
      split
      · simp_all
      · next a q chosen =>
        rw [picked] at chosen
        cases chosen
        exact run

/-- What a key gives for some list of choices. -/
def Gives (g : Generator) (key : String) (r : Except Fault Word) : Prop :=
  ∃ cycle : List Nat, (g.createWord key { cycle := cycle }).1 = r

section Gives

variable {g : Generator} {key : String} {shapes : List Pattern}

theorem createWord_of_choose? {picks after : Picks} {shape : Pattern} (found : g.shapes? key = some shapes)
    (picked : picks.choose? shapes = some (shape, after)) :
    (g.createWord key picks).1 = (g.expand after [] [shape]).1.map Word.mk := by
  have chosen : (g.shapes? key).bind picks.choose? = some (shape, after) := by
    rw [found, Option.bind_some, picked]
  rw [createWord, chosen]
  dsimp only
  split <;> simp [*, Except.map]

/-- Whatever was chosen before, a key gives what one of its shapes may come to. -/
theorem exists_may_of_createWord (found : g.shapes? key = some shapes) (filled : shapes ≠ [])
    (picks : Picks) :
    ∃ shape ∈ shapes, ∃ r, g.May [] [shape] r ∧ (g.createWord key picks).1 = r.map Word.mk := by
  obtain ⟨shape, after, picked⟩ := picks.choose?_isSome filled
  exact ⟨shape, Picks.mem_of_choose? picked, _, g.may_expand after [] [shape],
    createWord_of_choose? found picked⟩

theorem gives_of_may {shape : Pattern} {r : Except Fault (List String)} (found : g.shapes? key = some shapes)
    (member : shape ∈ shapes) (may : g.May [] [shape] r) : g.Gives key (r.map Word.mk) := by
  obtain ⟨n, picks⟩ := Picks.exists_choose? member
  obtain ⟨more, runs⟩ := may.exists_picks [n]
  refine ⟨n :: more, ?_⟩
  have run := runs []
  rw [List.append_nil] at run
  rw [← run]
  exact createWord_of_choose? found (picks [] more)

/-- For some list of choices a key gives exactly what one of its shapes may come to. -/
theorem gives_iff (found : g.shapes? key = some shapes) (filled : shapes ≠ []) (r : Except Fault Word) :
    g.Gives key r ↔ ∃ shape ∈ shapes, ∃ s, g.May [] [shape] s ∧ r = s.map Word.mk := by
  constructor
  · rintro ⟨cycle, rfl⟩
    exact exists_may_of_createWord found filled _
  · rintro ⟨shape, member, s, may, rfl⟩
    exact gives_of_may found member may

end Gives

end Generator

end Etymology
