import Etymology.Proofs.Text.Decomposed
import Etymology.Proofs.Text.Reordered

namespace Etymology.Text

variable {c : Char} {cs marks : List Char} {cluster : Cluster}

theorem recomposeFrom_ne_nil (given : cluster.chars ++ cs ≠ []) : recomposeFrom cluster cs ≠ [] := by
  induction cs generalizing cluster with
  | nil => simpa [recomposeFrom] using given
  | cons c cs ih =>
    rw [recomposeFrom]
    split
    · exact ih (by simp [Cluster.chars])
    · split
      · exact List.append_ne_nil_of_right_ne_nil _ (ih (by simp [Cluster.chars]))
      · exact ih (by simp [Cluster.chars])

theorem composed_ne_nil (given : cs ≠ []) : composed cs ≠ [] := by
  rw [composed]
  split
  · exact given
  · have decomposed : cs.flatMap decompose ≠ [] := by
      obtain ⟨c, rest, rfl⟩ := List.exists_cons_of_ne_nil given
      rw [List.flatMap_cons]
      exact List.append_ne_nil_of_left_ne_nil (decompose_ne_nil c) _
    have reordered : ({} : Cluster).chars ++ reorderFrom {} (cs.flatMap decompose) ≠ [] := by
      intro empty
      exact decomposed ((reorderFrom_perm {} _).symm.trans (.of_eq empty)).eq_nil
    exact recomposeFrom_ne_nil reordered

/-- Characters that decompose no further. -/
def Full (cs : List Char) : Prop :=
  ∀ c ∈ cs, decompose c = [c]

theorem Full.flatMap_decompose (full : Full cs) : cs.flatMap decompose = cs := by
  induction cs with
  | nil => rfl
  | cons c cs ih =>
    obtain ⟨here, later⟩ := List.forall_mem_cons.mp full
    rw [List.flatMap_cons, here, ih later, List.singleton_append]

/-- A mark that reaches its starter is of a higher class than all marks on its way. -/
theorem lt_of_reaches (marked : ∀ m ∈ marks, combiningClass m ≠ 0) (ordered : InOrder marks)
    (reached : reaches marks c = true) : ∀ m ∈ marks, combiningClass m < combiningClass c := by
  rw [reaches] at reached
  rcases List.eq_nil_or_concat marks with rfl | ⟨before, last, rfl⟩
  · exact nofun
  · rw [List.concat_eq_append] at marked ordered reached ⊢
    rw [List.getLast?_concat] at reached
    have less : combiningClass last < combiningClass c := by simpa using reached
    obtain ⟨earlier, here⟩ := List.forall_mem_append.mp marked
    have least := ordered.le_of_marks earlier (here last List.mem_cons_self)
    intro m member
    rcases List.mem_append.mp member with inside | atEnd
    · have le := least m inside
      omega
    · obtain rfl := List.mem_singleton.mp atEnd
      exact less

/-- Without a mark that composed, the others are in order as they were. -/
theorem InOrder.of_reaches (ordered : InOrder (marks ++ c :: cs)) (reached : reaches marks c = true) :
    InOrder (marks ++ cs) := by
  obtain ⟨before, behind, joint⟩ := List.isChain_append.mp ordered
  refine List.isChain_append.mpr ⟨before, behind.tail, ?_⟩
  intro m last d next
  rw [reaches, Option.mem_def.mp last] at reached
  have less : combiningClass m < combiningClass c := by simpa using reached
  cases cs with
  | nil => cases next
  | cons e cs =>
    obtain rfl : e = d := Option.some.inj next
    have step := (List.isChain_cons_cons.mp behind).1
    omega

/-- Composing a text in order and decomposing it again gives the text back, but for the order of its marks. -/
theorem reordered_recomposeFrom (marked : ∀ m ∈ cluster.marks, combiningClass m ≠ 0)
    (ordered : InOrder (cluster.marks ++ cs)) (full : Full (cluster.marks ++ cs)) :
    Reordered ((recomposeFrom cluster cs).flatMap decompose)
      (cluster.starter.toList.flatMap decompose ++ (cluster.marks ++ cs)) := by
  induction cs generalizing cluster with
  | nil =>
    rw [List.append_nil] at full ⊢
    rw [recomposeFrom, Cluster.chars, List.flatMap_append, full.flatMap_decompose]
    exact .refl _
  | cons c cs ih =>
    obtain ⟨fullMarks, fullRest⟩ := List.forall_mem_append.mp full
    obtain ⟨single, fullLater⟩ := List.forall_mem_cons.mp fullRest
    rw [recomposeFrom]
    split
    · next whole composes =>
      obtain ⟨s, first, pair⟩ := Option.bind_eq_some_iff.mp composes
      obtain ⟨reached, composite⟩ : reaches cluster.marks c = true ∧ composePair? s c = some whole := by
        simpa using pair
      have rest := @ih ⟨some whole, cluster.marks⟩ marked (ordered.of_reaches reached)
        (List.forall_mem_append.mpr ⟨fullMarks, fullLater⟩)
      have inOrder : InOrder cluster.marks := (List.isChain_append.mp ordered).1
      have lower := lt_of_reaches marked inOrder reached
      -- Only marks of lower classes stood before the character that was composed, so that it may go back behind them.
      have back : Reordered (c :: (cluster.marks ++ cs)) (cluster.marks ++ c :: cs) :=
        reordered_of_lt (fun m member => ⟨marked m member, lower m member⟩) cs
      have parts : decompose whole = decompose s ++ [c] := by rw [decompose_of_composePair? composite, single]
      refine rest.trans ?_
      simpa [first, parts] using back.append_left (decompose s)
    · split
      · have rest := @ih ⟨some c, []⟩ (List.forall_mem_nil _) (List.isChain_append.mp ordered).2.1.tail fullLater
        have marks : cluster.marks.flatMap decompose = cluster.marks := Full.flatMap_decompose fullMarks
        have later := rest.append_left (cluster.starter.toList.flatMap decompose ++ cluster.marks)
        simpa [Cluster.chars, marks, single] using later
      · next one =>
        have more : ∀ m ∈ cluster.marks ++ [c], combiningClass m ≠ 0 :=
          List.forall_mem_append.mpr ⟨marked, List.forall_mem_singleton.mpr (by simpa using one)⟩
        have rest := @ih ⟨cluster.starter, cluster.marks ++ [c]⟩ more (by simpa using ordered) (by simpa using full)
        simpa using rest

/-- A text that is composed is its own composed form. -/
theorem composed_composed (cs : List Char) : composed (composed cs) = composed cs := by
  by_cases low : cs.all (fun c => decide (c.toNat < 0x300)) = true
  · have same : composed cs = cs := by rw [composed, if_pos low]
    rw [same, same]
  · have form : composed cs = recomposeFrom {} (reorderFrom {} (cs.flatMap decompose)) := by rw [composed, if_neg low]
    have unmarked : ∀ m ∈ ({} : Cluster).marks, combiningClass m ≠ 0 := nofun
    have ordered : InOrder (reorderFrom {} (cs.flatMap decompose)) := @inOrder_reorderFrom {} nofun .nil _
    have full : Full (reorderFrom {} (cs.flatMap decompose)) := by
      intro d member
      have among := (reorderFrom_perm {} _).mem_iff.mp member
      obtain ⟨c, -, part⟩ := List.mem_flatMap.mp among
      exact decompose_of_mem_decompose part
    have again : Reordered ((composed cs).flatMap decompose) (reorderFrom {} (cs.flatMap decompose)) := by
      rw [form]
      exact reordered_recomposeFrom unmarked ordered full
    rw [composed]
    split
    · rfl
    · rw [again.reorderFrom_eq, reorderFrom_of_inOrder unmarked ordered, form]
      rfl

end Etymology.Text
