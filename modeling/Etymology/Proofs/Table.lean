import Etymology.Table

namespace Etymology.Table

variable {α : Type}

theorem mem_entries_of_get? {t : Table α} {key : String} {a : α} (found : t.get? key = some a) :
    (key, a) ∈ t.entries := by
  obtain ⟨before, after, split, -⟩ := List.lookup_eq_some_iff.mp found
  simp [split]

theorem exists_get?_of_contains {t : Table α} {key : String} (present : t.contains key = true) :
    ∃ a, t.get? key = some a := by
  cases found : t.get? key with
  | none =>
    rw [(get?_eq_none t key).mp found] at present
    cases present
  | some a => exact ⟨a, rfl⟩

theorem contains_of_get? {t : Table α} {key : String} {a : α} (found : t.get? key = some a) :
    t.contains key = true := by
  cases present : t.contains key with
  | true => rfl
  | false =>
    rw [(get?_eq_none t key).mpr present] at found
    cases found

theorem lookup_putEntry (key : String) (a : α) (other : String) (entries : List (String × α)) :
    (entries.map (putEntry key a)).lookup other =
      if key = other then (entries.lookup other).map fun _ => a else entries.lookup other := by
  induction entries with
  | nil => simp
  | cons e entries ih =>
    obtain ⟨k, b⟩ := e
    by_cases here : k = key
    · subst here
      by_cases same : k = other
      · subst same
        simp [putEntry]
      · have miss : (other == k) = false := by simpa using Ne.symm same
        simpa [putEntry, List.lookup_cons, miss, same] using ih
    · by_cases same : key = other
      · subst same
        have miss : (key == k) = false := by simpa using Ne.symm here
        simpa [putEntry, here, List.lookup_cons, miss] using ih
      · simp only [List.map_cons, putEntry, here, if_false, List.lookup_cons, ih, same]

/-- The value that was written is found under its key, and every other key finds what it found. -/
theorem get?_put (t : Table α) (key : String) (a : α) (other : String) :
    (t.put key a).get? other = if key = other then some a else t.get? other := by
  unfold put
  split
  · next present =>
    obtain ⟨b, found⟩ := exists_get?_of_contains present
    rw [get?, lookup_putEntry]
    by_cases same : key = other
    · subst same
      have known : t.entries.lookup key = some b := found
      simp [known]
    · simp only [same, if_false, get?]
  · next absent =>
    have unknown : t.entries.lookup key = none := (get?_eq_none t key).mpr (by simpa using absent)
    simp only [get?, List.lookup_append]
    by_cases same : key = other
    · subst same
      simp [unknown]
    · have miss : (other == key) = false := by simpa using Ne.symm same
      simp [same, List.lookup_cons, miss]

theorem get?_put_self (t : Table α) (key : String) (a : α) : (t.put key a).get? key = some a := by
  rw [get?_put, if_pos rfl]

theorem get?_put_of_ne (t : Table α) {key other : String} (a : α) (different : key ≠ other) :
    (t.put key a).get? other = t.get? other := by
  rw [get?_put, if_neg different]

theorem ext_entries {t u : Table α} (same : t.entries = u.entries) : t = u := by
  cases t
  cases u
  cases same
  rfl

theorem entries_put_of_contains {t : Table α} {key : String} (a : α) (present : t.contains key = true) :
    (t.put key a).entries = t.entries.map (putEntry key a) := by
  rw [put, dif_pos present]

theorem entries_put_of_not_contains {t : Table α} {key : String} (a : α) (absent : t.contains key = false) :
    (t.put key a).entries = t.entries ++ [(key, a)] := by
  rw [put, dif_neg (Bool.not_eq_true _ ▸ absent)]

theorem putEntry_putEntry (key : String) (a b : α) : putEntry key a ∘ putEntry key b = putEntry key a := by
  funext e
  simp only [Function.comp_apply, putEntry]
  split
  · rw [if_pos rfl]
  · rfl

theorem map_putEntry_of_others {key : String} (a : α) {entries : List (String × α)}
    (others : ∀ e ∈ entries, e.1 ≠ key) : entries.map (putEntry key a) = entries := by
  refine (List.map_congr_left fun e member => ?_).trans (List.map_id entries)
  rw [putEntry, if_neg (others e member)]
  rfl

theorem putEntry_comm {key other : String} (a b : α) (different : key ≠ other) :
    putEntry key a ∘ putEntry other b = putEntry other b ∘ putEntry key a := by
  funext e
  simp only [Function.comp_apply, putEntry]
  by_cases here : e.1 = key
  · have : e.1 ≠ other := here ▸ different
    simp [here, different]
  · by_cases there : e.1 = other
    · simp [there, different.symm]
    · simp [here, there]

/-- The last value written under a key is all that counts. -/
theorem put_put_self (t : Table α) (key : String) (a b : α) : (t.put key b).put key a = t.put key a := by
  have again : (t.put key b).contains key = true := by simp [contains_put]
  apply ext_entries
  rw [entries_put_of_contains a again]
  cases present : t.contains key with
  | true =>
    rw [entries_put_of_contains b present, entries_put_of_contains a present, List.map_map, putEntry_putEntry]
  | false =>
    have others : ∀ e ∈ t.entries, e.1 ≠ key := by simpa [contains] using present
    rw [entries_put_of_not_contains b present, entries_put_of_not_contains a present, List.map_append,
      map_putEntry_of_others a others]
    simp [putEntry]

/-- A key that is present may take its value before another key is written or after. -/
theorem put_comm {t : Table α} {key other : String} (a b : α) (present : t.contains key = true)
    (different : key ≠ other) : (t.put key a).put other b = (t.put other b).put key a := by
  have later : (t.put other b).contains key = true := by simp [contains_put, present]
  apply ext_entries
  rw [entries_put_of_contains a later]
  cases known : t.contains other with
  | true =>
    have still : (t.put key a).contains other = true := by simp [contains_put, known]
    rw [entries_put_of_contains b still, entries_put_of_contains a present, entries_put_of_contains b known,
      List.map_map, List.map_map, putEntry_comm b a different.symm]
  | false =>
    have still : (t.put key a).contains other = false := by simp [contains_put, known, different]
    rw [entries_put_of_not_contains b still, entries_put_of_contains a present,
      entries_put_of_not_contains b known, List.map_append]
    simp [putEntry, different.symm]

theorem putAll_cons (t : Table α) (e : String × α) (entries : List (String × α)) :
    t.putAll (e :: entries) = (t.put e.1 e.2).putAll entries :=
  rfl

theorem putAll_append (t : Table α) (entries more : List (String × α)) :
    t.putAll (entries ++ more) = (t.putAll entries).putAll more :=
  List.foldl_append

/-- Writing other keys does not depend on when a key that is present takes its value. -/
theorem putAll_put {t : Table α} {key : String} (a : α) {entries : List (String × α)}
    (present : t.contains key = true) (others : ∀ e ∈ entries, e.1 ≠ key) :
    (t.put key a).putAll entries = (t.putAll entries).put key a := by
  induction entries generalizing t with
  | nil => rfl
  | cons e entries ih =>
    obtain ⟨here, later⟩ := List.forall_mem_cons.mp others
    have still : (t.put e.1 e.2).contains key = true := by simp [contains_put, present]
    rw [putAll_cons, putAll_cons, put_comm a e.2 present here.symm, ih still later]

/-- Whoever takes over a table after a write may as well write behind what is taken over. -/
theorem putAll_entries_put (t u : Table α) (key : String) (a : α) :
    t.putAll (u.put key a).entries = (t.putAll u.entries).put key a := by
  cases present : u.contains key with
  | false =>
    rw [entries_put_of_not_contains a present, putAll_append]
    rfl
  | true =>
    obtain ⟨b, found⟩ := exists_get?_of_contains present
    obtain ⟨before, after, parts, fresh⟩ := List.lookup_eq_some_iff.mp found
    have keys := u.keys_nodup
    rw [parts, List.map_append, List.map_cons, List.nodup_append] at keys
    have later : ∀ e ∈ after, e.1 ≠ key := by
      intro e member same
      exact (List.nodup_cons.mp keys.2.1).1 (List.mem_map.mpr ⟨e, member, same⟩)
    have earlier : ∀ e ∈ before, e.1 ≠ key := by
      intro e member same
      simpa [same] using fresh e member
    have written : ((t.putAll before).put key b).contains key = true := by simp [contains_put]
    calc t.putAll (u.put key a).entries
        = t.putAll (before ++ (key, a) :: after) := by
          rw [entries_put_of_contains a present, parts, List.map_append, List.map_cons,
            map_putEntry_of_others a earlier, map_putEntry_of_others a later]
          simp [putEntry]
      _ = ((t.putAll before).put key a).putAll after := putAll_append t before _
      _ = (((t.putAll before).put key b).put key a).putAll after := by rw [put_put_self]
      _ = (((t.putAll before).put key b).putAll after).put key a := putAll_put a written later
      _ = (t.putAll u.entries).put key a := by rw [parts, putAll_append, putAll_cons]

/-- New keys go to the end, in their order. -/
theorem entries_putAll_of_fresh {t : Table α} {entries : List (String × α)}
    (fresh : (t.keys ++ entries.map (·.1)).Nodup) : (t.putAll entries).entries = t.entries ++ entries := by
  induction entries generalizing t with
  | nil => exact (List.append_nil _).symm
  | cons e entries ih =>
    have absent : t.contains e.1 = false := by
      rw [← Bool.not_eq_true, contains_eq_true]
      intro known
      exact (List.nodup_append.mp fresh).2.2 e.1 known e.1 (by simp) rfl
    have put := entries_put_of_not_contains e.2 absent
    rw [putAll_cons, ih, put, List.append_assoc]
    · rfl
    · rw [keys, put, List.map_append, List.append_assoc]
      exact fresh

/-- An empty table takes over another as it is. -/
theorem empty_putAll (t : Table α) : ({} : Table α).putAll t.entries = t :=
  ext_entries (entries_putAll_of_fresh t.keys_nodup)

end Etymology.Table
