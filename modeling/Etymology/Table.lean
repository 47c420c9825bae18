namespace Etymology

structure Table (α : Type) where
  entries : List (String × α) := []
  keys_nodup : (entries.map (·.1)).Nodup := by exact List.nodup_nil

namespace Table

variable {α : Type}

instance : Inhabited (Table α) := ⟨{}⟩

def get? (t : Table α) (key : String) : Option α :=
  t.entries.lookup key

def contains (t : Table α) (key : String) : Bool :=
  t.entries.any fun e => e.1 == key

def keys (t : Table α) : List String :=
  t.entries.map (·.1)

def values (t : Table α) : List α :=
  t.entries.map (·.2)

def size (t : Table α) : Nat :=
  t.entries.length

theorem contains_eq_true {t : Table α} {key : String} : t.contains key = true ↔ key ∈ t.keys := by
  simp only [contains, keys, List.any_eq_true, List.mem_map, beq_iff_eq]

/-- The entry that a key gets with a new value; an entry of another key stays as it is. -/
def putEntry (key : String) (a : α) (e : String × α) : String × α :=
  if e.1 = key then (key, a) else e

theorem putEntry_key (key : String) (a : α) (e : String × α) : (putEntry key a e).1 = e.1 := by
  unfold putEntry
  split
  · next same => exact same.symm
  · rfl

/-- A key that is present keeps its place and takes the new value; a new key goes to the end. -/
def put (t : Table α) (key : String) (a : α) : Table α :=
  if h : t.contains key = true then {
    entries := t.entries.map (putEntry key a)
    keys_nodup := by
      rw [List.map_map]
      exact (List.map_congr_left fun e _ => putEntry_key key a e) ▸ t.keys_nodup }
  else {
    entries := t.entries ++ [(key, a)]
    keys_nodup := by
      rw [contains_eq_true] at h
      rw [List.map_append, List.nodup_append]
      refine ⟨t.keys_nodup, by simp, ?_⟩
      rintro k present l new rfl
      obtain rfl : k = key := by simpa using new
      exact h present }

theorem contains_put (t : Table α) (key : String) (a : α) (other : String) :
    (t.put key a).contains other = (key == other || t.contains other) := by
  unfold put
  split
  · next present =>
    have kept : (t.entries.map (putEntry key a)).any (fun e => e.1 == other) = t.contains other := by
      rw [List.any_map]
      exact congrArg t.entries.any (funext fun e => congrArg (· == other) (putEntry_key key a e))
    rw [contains, kept]
    by_cases same : key = other
    · rw [← same, present, Bool.or_true]
    · simp [same]
  · simp [contains, Bool.or_comm]

theorem get?_eq_none (t : Table α) (key : String) : t.get? key = none ↔ t.contains key = false := by
  simp only [get?, contains, List.lookup_eq_none_iff, List.any_eq_false, bne_iff_ne, beq_iff_eq]
  exact forall_congr' fun e => forall_congr' fun _ => not_congr eq_comm

def putAll (t : Table α) (entries : List (String × α)) : Table α :=
  entries.foldl (fun t e => t.put e.1 e.2) t

end Table

end Etymology
