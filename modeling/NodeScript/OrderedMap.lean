/-!
Tables that remember the order in which their keys first came. A key stands at most once, and
writing to a key that is present leaves it where it is.
-/

namespace NodeScript

universe u v

/-- A table of values by key, in order of first arrival. -/
@[ext] structure OrderedMap (κ : Type u) (ν : Type v) where
  /-- The entries in order. -/
  entries : List (κ × ν)
  /-- No key stands twice. -/
  nodup_keys : (entries.map Prod.fst).Nodup := by simp
deriving DecidableEq

namespace OrderedMap

variable {κ : Type u} {ν : Type v} [DecidableEq κ]

/-- The table without entries. -/
def empty : OrderedMap κ ν := ⟨[], by simp⟩

instance : EmptyCollection (OrderedMap κ ν) := ⟨empty⟩

instance : Inhabited (OrderedMap κ ν) := ⟨empty⟩

/-- The keys in order. -/
def keys (m : OrderedMap κ ν) : List κ := m.entries.map Prod.fst

/-- The values in the order of their keys. -/
def values (m : OrderedMap κ ν) : List ν := m.entries.map Prod.snd

/-- The number of entries. -/
def size (m : OrderedMap κ ν) : Nat := m.entries.length

/-- Whether there are no entries. -/
def isEmpty (m : OrderedMap κ ν) : Bool := m.entries.isEmpty

/-- The value of a key. -/
def get? (m : OrderedMap κ ν) (k : κ) : Option ν :=
  (m.entries.find? (·.1 = k)).map Prod.snd

/-- Whether a key has a value. -/
def contains (m : OrderedMap κ ν) (k : κ) : Bool :=
  m.entries.any (·.1 = k)

/-- The place of a key in the order. -/
def index? (m : OrderedMap κ ν) (k : κ) : Option Nat :=
  m.entries.findIdx? (·.1 = k)

/-- The entry at a place of the order. -/
def entryAt? (m : OrderedMap κ ν) (i : Nat) : Option (κ × ν) := m.entries[i]?

/-- Replaces the value of `k` in a list of entries. -/
def replaceEntry (k : κ) (value : ν) (entry : κ × ν) : κ × ν :=
  if entry.1 = k then (k, value) else entry

/-- Replacing the value of an entry leaves the keys as they are. -/
theorem keys_replaceEntry (k : κ) (value : ν) (entries : List (κ × ν)) :
    (entries.map (replaceEntry k value)).map Prod.fst = entries.map Prod.fst := by
  induction entries with
  | nil => rfl
  | cons e rest ih =>
    simp only [List.map_cons, ih, List.cons.injEq, and_true]
    unfold replaceEntry
    split
    · rename_i same; exact same.symm
    · rfl

/-- Writes a value. A new key goes to the end, a present one stays in its place. -/
def insert (m : OrderedMap κ ν) (k : κ) (value : ν) : OrderedMap κ ν :=
  if present : m.contains k then
    ⟨m.entries.map (replaceEntry k value), by rw [keys_replaceEntry]; exact m.nodup_keys⟩
  else
    ⟨m.entries ++ [(k, value)], by
      rw [List.map_append, List.nodup_append]
      refine ⟨m.nodup_keys, by simp, ?_⟩
      intro a member b single same
      simp only [List.map_cons, List.map_nil, List.mem_singleton] at single
      subst single same
      apply present
      obtain ⟨e, inside, rfl⟩ := List.mem_map.mp member
      exact List.any_eq_true.mpr ⟨e, inside, by simp⟩⟩

/-- Keeps the entries that satisfy a test. -/
def filter (m : OrderedMap κ ν) (keep : κ → ν → Bool) : OrderedMap κ ν :=
  ⟨m.entries.filter fun e => keep e.1 e.2,
    m.nodup_keys.sublist ((List.filter_sublist).map Prod.fst)⟩

/-- Removes a key; the others keep their order. -/
def erase (m : OrderedMap κ ν) (k : κ) : OrderedMap κ ν :=
  m.filter fun key _ => key ≠ k

/-- Changes the value of a key that is present. -/
def modify (m : OrderedMap κ ν) (k : κ) (change : ν → ν) : OrderedMap κ ν :=
  match m.get? k with
  | some value => m.insert k (change value)
  | none => m

/-- Changes every value. -/
def mapValues {μ : Type v} (m : OrderedMap κ ν) (change : κ → ν → μ) : OrderedMap κ μ :=
  ⟨m.entries.map fun e => (e.1, change e.1 e.2), by
    rw [List.map_map]; exact m.nodup_keys⟩

/-- Writes the entries one after the other. -/
def insertAll (m : OrderedMap κ ν) (entries : List (κ × ν)) : OrderedMap κ ν :=
  entries.foldl (fun table e => table.insert e.1 e.2) m

/-- The table of a list of entries; of several with one key the last value counts. -/
def ofList (entries : List (κ × ν)) : OrderedMap κ ν :=
  empty.insertAll entries

omit [DecidableEq κ] in
/-- A new map holds no entries. -/
theorem entries_empty : (∅ : OrderedMap κ ν).entries = [] := rfl

/-- A map contains a key exactly when the key is among its keys. -/
theorem contains_eq_true_iff {m : OrderedMap κ ν} {k : κ} : m.contains k = true ↔ k ∈ m.keys := by
  simp [contains, keys]

/-- A key has no value exactly when it is not among the keys. -/
theorem get?_eq_none_iff {m : OrderedMap κ ν} {k : κ} : m.get? k = none ↔ k ∉ m.keys := by
  simp only [get?, Option.map_eq_none_iff, List.find?_eq_none, keys, List.mem_map, not_exists,
    not_and]
  constructor
  · intro absent e inside same
    exact absurd (by simpa using same) (by simpa using absent e inside)
  · intro absent e inside
    simpa using fun same => absent e inside same

/-- A key has a value exactly when the map holds the entry of both. -/
theorem get?_eq_some_iff {m : OrderedMap κ ν} {k : κ} {value : ν} :
    m.get? k = some value ↔ (k, value) ∈ m.entries := by
  obtain ⟨entries, nodup⟩ := m
  simp only [get?]
  induction entries with
  | nil => simp
  | cons e rest ih =>
    simp only [List.map_cons, List.nodup_cons] at nodup
    by_cases same : e.1 = k
    · obtain ⟨key, held⟩ := e
      simp only at same
      subst same
      simp only [List.find?_cons, decide_true, Option.map_some, Option.some.injEq, List.mem_cons,
        Prod.mk.injEq, true_and]
      constructor
      · rintro rfl; exact .inl rfl
      · rintro (rfl | inside)
        · rfl
        · exact absurd (List.mem_map_of_mem (f := Prod.fst) inside) nodup.1
    · have other : decide (e.1 = k) = false := by simp [same]
      simp only [List.find?_cons, other, List.mem_cons]
      rw [ih nodup.2]
      constructor
      · exact .inr
      · rintro (rfl | inside)
        · exact absurd rfl same
        · exact inside

end OrderedMap

/-- A set that remembers the order in which its members first came. -/
abbrev OrderedSet (κ : Type u) := OrderedMap κ Unit

/-- The set of the members of a list. -/
def OrderedSet.ofMembers {κ : Type u} [DecidableEq κ] (members : List κ) : OrderedSet κ :=
  OrderedMap.ofList (members.map fun k => (k, ()))

end NodeScript
