import Etymology.Proofs.Finding

namespace Etymology.Phonology

variable {p : Phonology}

/-- The findings on a table stand for its references to groups that are not declared, pattern by pattern. -/
theorem filterMap_fault?_undeclaredIn (p : Phonology) (name : PhonologyTable) (t : Table (List Pattern)) :
    (p.undeclaredIn name t).filterMap Finding.fault? =
      (t.values.flatten.flatMap fun pattern => pattern.filterMap p.undeclared?).map fun symbol =>
        .unknownSymbol (.text symbol) .group := by
  have patterns : t.values.flatten = t.entries.flatMap fun e => e.2 := by
    rw [Table.values, List.flatten_eq_flatMap, List.flatMap_map]
    rfl
  rw [undeclaredIn, patterns, List.flatMap_assoc, List.map_flatMap, List.filterMap_flatMap]
  refine List.flatMap_congr fun e _ => ?_
  rw [List.filterMap_flatMap, List.map_flatMap]
  refine List.flatMap_congr fun pattern _ => ?_
  rw [List.filterMap_filterMap, List.map_filterMap]
  refine List.filterMap_congr fun item _ => ?_
  cases item with
  | phoneme text => rfl
  | group symbol =>
    dsimp only [undeclared?]
    cases p.groups.contains symbol <;> rfl

/-- The check fails with the first finding, and passes where there is none. -/
theorem check_eq_raise (p : Phonology) : p.check = Finding.raise p.undeclaredGroups := by
  have found : p.undeclaredGroups.findSome? Finding.fault? =
      ((p.groups.values ++ p.lexisTypes.values).flatten.findSome? fun pattern =>
        pattern.findSome? p.undeclared?).map fun symbol => .unknownSymbol (.text symbol) .group := by
    have first : ((p.groups.values ++ p.lexisTypes.values).flatten.findSome? fun pattern =>
        pattern.findSome? p.undeclared?) =
          ((p.groups.values ++ p.lexisTypes.values).flatten.flatMap fun pattern =>
            pattern.filterMap p.undeclared?).head? := by
      simp only [List.head?_flatMap, List.head?_filterMap]
    rw [first, ← List.head?_map, ← List.head?_filterMap, undeclaredGroups, List.filterMap_append,
      filterMap_fault?_undeclaredIn, filterMap_fault?_undeclaredIn, List.flatten_append, List.flatMap_append,
      List.map_append]
  rw [check, Finding.raise, found]
  cases (p.groups.values ++ p.lexisTypes.values).flatten.findSome? fun pattern => pattern.findSome? p.undeclared? with
  | none => rfl
  | some symbol => rfl

/-- Every finding on a phonology is one on a group, and stands for a fault. -/
theorem raise_of_undeclaredGroups {f : Finding} {rest : List Finding} (found : p.undeclaredGroups = f :: rest) :
    ∃ table key symbol, f = .undeclaredGroup table key symbol ∧
      p.check = .error (.unknownSymbol (.text symbol) .group) := by
  have member : f ∈ ((some p).map undeclaredGroups).getD [] := by simp [found]
  obtain ⟨table, key, symbol, rfl⟩ := eq_undeclaredGroup_of_mem_undeclaredGroups member
  refine ⟨table, key, symbol, rfl, ?_⟩
  rw [check_eq_raise, found]
  rfl

theorem check_eq_ok_iff : p.check = .ok () ↔ p.undeclaredGroups = [] := by
  cases found : p.undeclaredGroups with
  | nil =>
    rw [check_eq_raise, found]
    exact iff_of_true rfl rfl
  | cons f rest =>
    obtain ⟨table, key, symbol, -, failed⟩ := raise_of_undeclaredGroups found
    rw [failed]
    exact iff_of_false nofun (List.cons_ne_nil f rest)

theorem check_eq_error_iff {fault : Fault} :
    p.check = .error fault ↔ ∃ table key symbol rest,
      p.undeclaredGroups = .undeclaredGroup table key symbol :: rest ∧ fault = .unknownSymbol (.text symbol) .group := by
  constructor
  · intro failed
    cases found : p.undeclaredGroups with
    | nil =>
      rw [check_eq_ok_iff.mpr found] at failed
      cases failed
    | cons f rest =>
      obtain ⟨table, key, symbol, rfl, raised⟩ := raise_of_undeclaredGroups found
      rw [raised] at failed
      exact ⟨table, key, symbol, rest, rfl, (Except.error.inj failed).symm⟩
  · rintro ⟨table, key, symbol, rest, found, rfl⟩
    obtain ⟨_, _, _, same, raised⟩ := raise_of_undeclaredGroups found
    cases same
    exact raised

/-- A phonology that is read from documents passes its check where there are no findings on it, and otherwise
fails with the group of the first finding. Once it passes, each of its keys gives a word whatever is chosen,
unless groups are nested beyond the limit: no group is ever missing. -/
theorem check_protects (built : p.Built) :
    (p.check = .ok () ↔ p.undeclaredGroups = []) ∧
      (∀ fault, p.check = .error fault ↔ ∃ table key symbol rest,
        p.undeclaredGroups = .undeclaredGroup table key symbol :: rest ∧
          fault = .unknownSymbol (.text symbol) .group) ∧
      (p.check = .ok () → ∀ key ∈ p.lexisTypes.keys, ∀ limit picks,
        let g : Generator := { phonology := p, limit := limit }
        (∃ w, (g.createWord key picks).1 = .ok w) ∨
          ∃ symbol, (g.createWord key picks).1 = .error (.tooDeep symbol limit)) := by
  refine ⟨check_eq_ok_iff, fun fault => check_eq_error_iff, ?_⟩
  intro passed key declared limit picks g
  have closed : g.phonology.Closed := built.closed (check_eq_ok_iff.mp passed)
  cases made : (g.createWord key picks).1 with
  | ok w => exact .inl ⟨w, rfl⟩
  | error fault =>
    obtain ⟨symbol, rfl⟩ := Generator.createWord_error closed (Table.contains_eq_true.mpr declared) made
    exact .inr ⟨symbol, rfl⟩

/-- Roots of a consonant and a vowel, with the vowels left to another document. -/
def consonants : Phonology where
  groups := ⟨[("C", [[.phoneme "t"]])], by decide⟩
  lexisTypes := ⟨[("root", [[.group "C", .group "V"]])], by decide⟩

/-- Vowels, of which any number may follow one another. -/
def vowels : Phonology where
  groups := ⟨[("V", [[.phoneme "a"], [.phoneme "i", .group "V"]])], by decide⟩

theorem built_consonants : consonants.Built :=
  .read (v := .mapping [
    (.text "groups", .mapping [(.text "C", .text "t")]),
    (.text "lexis_types", .mapping [(.text "root", .text "CV")])]) rfl

theorem built_vowels : vowels.Built :=
  .read (v := .mapping [(.text "groups", .mapping [(.text "V", .list [.text "a", .text "iV"])])]) rfl

/-- Alone the roots miss their vowels; with these they are complete. -/
theorem consonants_incomplete_merged_protected :
    consonants.Built ∧ consonants.check = .error (.unknownSymbol (.text "V") .group) ∧
      (consonants.merge vowels).Built ∧ (consonants.merge vowels).check = .ok () ∧
      ∀ limit picks, let g : Generator := { phonology := consonants.merge vowels, limit := limit }
        (∃ w, (g.createWord "root" picks).1 = .ok w) ∨
          ∃ symbol, (g.createWord "root" picks).1 = .error (.tooDeep symbol limit) := by
  have built : (consonants.merge vowels).Built := .merged built_consonants built_vowels
  have missing := (check_protects built_consonants).2.1 (.unknownSymbol (.text "V") .group)
  obtain ⟨passes, -, words⟩ := check_protects built
  have complete : (consonants.merge vowels).check = .ok () := passes.mpr rfl
  refine ⟨built_consonants, missing.mpr ⟨.lexisTypes, "root", "V", [], rfl, rfl⟩, built, complete, ?_⟩
  exact words complete "root" (by decide)

end Etymology.Phonology
