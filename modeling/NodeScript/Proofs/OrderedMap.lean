import Mathlib.Data.List.Nodup
import Mathlib.Data.List.Perm.Subperm
import NodeScript.OrderedMap

/-!
Items that are found by a key, and tables seen through their look-up: what writing to a key, removing
keys and changing a value do to the value of every key, and to the order of the keys.
-/

namespace NodeScript

universe u v

section Keys

variable {α : Type u} {κ : Type v} [DecidableEq κ] {key : α → κ} {items items' : List α}

/-- Of items that are told apart by a key each is found by its own. -/
theorem find?_key_iff (single : (items.map key).Nodup) {k : κ} {x : α} :
    items.find? (key · = k) = some x ↔ x ∈ items ∧ key x = k := by
  constructor
  · exact fun found => ⟨List.mem_of_find?_eq_some found, by simpa using List.find?_some found⟩
  · rintro ⟨member, rfl⟩
    obtain ⟨y, found⟩ : ∃ y, items.find? (key · = key x) = some y :=
      Option.isSome_iff_exists.mp (List.find?_isSome.mpr ⟨x, member, by simp⟩)
    have same : key y = key x := by simpa using List.find?_some found
    rw [found, List.inj_on_of_nodup_map single (List.mem_of_find?_eq_some found) member same]

theorem find?_key_perm (perm : items.Perm items') (single : (items'.map key).Nodup) (k : κ) :
    items.find? (key · = k) = items'.find? (key · = k) := by
  ext x
  rw [find?_key_iff ((perm.map key).nodup_iff.mpr single), find?_key_iff single, perm.mem_iff]

end Keys

namespace OrderedMap

variable {κ : Type u} {ν : Type v} [DecidableEq κ] {m : OrderedMap κ ν} {k k' : κ} {value : ν}

theorem mem_keys_of_get? (found : m.get? k = some value) : k ∈ m.keys :=
  List.mem_map_of_mem (f := Prod.fst) (get?_eq_some_iff.mp found)

theorem exists_get?_of_mem_keys (member : k ∈ m.keys) : ∃ value, m.get? k = some value := by
  cases found : m.get? k with
  | none => exact absurd member (get?_eq_none_iff.mp found)
  | some value => exact ⟨value, rfl⟩

theorem isSome_get?_iff : (m.get? k).isSome ↔ k ∈ m.keys := by
  rw [Option.isSome_iff_ne_none, ne_eq, get?_eq_none_iff, not_not]

omit [DecidableEq κ] in
theorem mem_values_iff : value ∈ m.values ↔ ∃ k, (k, value) ∈ m.entries := by
  simp [values]

theorem mem_values_of_get? (found : m.get? k = some value) : value ∈ m.values :=
  mem_values_iff.mpr ⟨k, get?_eq_some_iff.mp found⟩

omit [DecidableEq κ] in
theorem length_keys : m.keys.length = m.size := by simp [keys, size]

theorem insert_of_contains (present : m.contains k = true) (value : ν) :
    (m.insert k value).entries = m.entries.map (replaceEntry k value) := by
  simp [insert, present]

theorem insert_of_not_contains (absent : m.contains k = false) (value : ν) :
    (m.insert k value).entries = m.entries ++ [(k, value)] := by
  simp [insert, absent]

theorem contains_eq_false_iff : m.contains k = false ↔ k ∉ m.keys := by
  rw [← contains_eq_true_iff, Bool.not_eq_true]

/-- An entry stands in a table after a write if it is the one that was written, or if it stood there
before under another key. -/
theorem mem_entries_insert {e : κ × ν} :
    e ∈ (m.insert k value).entries ↔ e = (k, value) ∨ (e.1 ≠ k ∧ e ∈ m.entries) := by
  cases present : m.contains k with
  | true =>
    obtain ⟨old, held⟩ := exists_get?_of_mem_keys (contains_eq_true_iff.mp present)
    have inside := get?_eq_some_iff.mp held
    rw [insert_of_contains present, List.mem_map]
    constructor
    · rintro ⟨e', member, rfl⟩
      unfold replaceEntry
      split
      · exact Or.inl rfl
      · rename_i other; exact Or.inr ⟨other, member⟩
    · rintro (rfl | ⟨other, member⟩)
      · exact ⟨_, inside, by simp [replaceEntry]⟩
      · exact ⟨e, member, by simp [replaceEntry, other]⟩
  | false =>
    have absent := contains_eq_false_iff.mp present
    rw [insert_of_not_contains present, List.mem_append, List.mem_singleton]
    constructor
    · rintro (member | rfl)
      · refine Or.inr ⟨?_, member⟩
        rintro rfl
        exact absent (List.mem_map_of_mem (f := Prod.fst) member)
      · exact Or.inl rfl
    · rintro (rfl | ⟨_, member⟩)
      · exact Or.inr rfl
      · exact Or.inl member

/-- A write changes the value of its key alone. -/
theorem get?_insert : (m.insert k value).get? k' = if k' = k then some value else m.get? k' := by
  refine Option.ext fun found => ?_
  rw [get?_eq_some_iff, mem_entries_insert]
  split
  · rename_i same
    subst same
    constructor
    · rintro (written | ⟨other, _⟩)
      · rw [Prod.mk.injEq] at written; rw [written.2]
      · exact absurd rfl other
    · intro written
      rw [Option.some.inj written]
      exact Or.inl rfl
  · rename_i other
    rw [get?_eq_some_iff]
    constructor
    · rintro (written | ⟨_, member⟩)
      · rw [Prod.mk.injEq] at written; exact absurd written.1 other
      · exact member
    · exact fun member => Or.inr ⟨other, member⟩

@[simp] theorem get?_insert_self : (m.insert k value).get? k = some value := by simp [get?_insert]

theorem get?_insert_of_ne (other : k' ≠ k) : (m.insert k value).get? k' = m.get? k' := by
  simp [get?_insert, other]

theorem mem_keys_insert : k' ∈ (m.insert k value).keys ↔ k' = k ∨ k' ∈ m.keys := by
  rw [← isSome_get?_iff, get?_insert, ← isSome_get?_iff]
  split
  · rename_i same; simp [same]
  · rename_i other; simp [other]

theorem keys_insert :
    (m.insert k value).keys = if k ∈ m.keys then m.keys else m.keys ++ [k] := by
  split
  · rename_i present
    rw [keys, insert_of_contains (contains_eq_true_iff.mpr present), keys_replaceEntry]
    rfl
  · rename_i absent
    rw [keys, insert_of_not_contains (contains_eq_false_iff.mpr absent)]
    simp [keys]

omit [DecidableEq κ] in
theorem mem_entries_filter {keep : κ → ν → Bool} {e : κ × ν} :
    e ∈ (m.filter keep).entries ↔ e ∈ m.entries ∧ keep e.1 e.2 = true := by
  simp [filter]

/-- A filter leaves the values that pass it. -/
theorem get?_filter {keep : κ → ν → Bool} : (m.filter keep).get? k = (m.get? k).filter (keep k) := by
  refine Option.ext fun value => ?_
  rw [get?_eq_some_iff, mem_entries_filter, Option.filter_eq_some_iff, get?_eq_some_iff]

theorem get?_erase : (m.erase k).get? k' = if k' = k then none else m.get? k' := by
  rw [erase, get?_filter]
  split
  · rename_i same; cases m.get? k' <;> simp [same]
  · rename_i other; cases m.get? k' <;> simp [other]

theorem mem_keys_erase : k' ∈ (m.erase k).keys ↔ k' ≠ k ∧ k' ∈ m.keys := by
  rw [← isSome_get?_iff, get?_erase, ← isSome_get?_iff]
  split
  · rename_i same; simp [same]
  · rename_i other; simp [other]

/-- A change of a value that is not there changes nothing. -/
theorem get?_modify {change : ν → ν} :
    (m.modify k change).get? k' = if k' = k then (m.get? k).map change else m.get? k' := by
  unfold modify
  cases held : m.get? k with
  | none => by_cases same : k' = k <;> simp [same, held]
  | some value => simp [get?_insert]

theorem modify_of_get? {change : ν → ν} (held : m.get? k = some value) :
    m.modify k change = m.insert k (change value) := by
  rw [modify, held]

theorem mem_keys_insertAll {entries : List (κ × ν)} :
    k ∈ (m.insertAll entries).keys ↔ k ∈ m.keys ∨ k ∈ entries.map Prod.fst := by
  induction entries generalizing m with
  | nil => simp [insertAll]
  | cons e rest ih =>
    have step : m.insertAll (e :: rest) = (m.insert e.1 e.2).insertAll rest := rfl
    rw [step, ih, mem_keys_insert, List.map_cons, List.mem_cons, or_comm (a := k = e.1), or_assoc]

theorem mem_of_get?_insertAll {entries : List (κ × ν)} (found : (m.insertAll entries).get? k = some value) :
    m.get? k = some value ∨ (k, value) ∈ entries := by
  induction entries generalizing m with
  | nil => exact .inl found
  | cons e rest ih =>
    have step : m.insertAll (e :: rest) = (m.insert e.1 e.2).insertAll rest := rfl
    rcases ih (step ▸ found) with held | later
    · rw [get?_insert] at held
      split at held
      · rename_i same
        exact .inr (List.mem_cons.mpr (.inl (Prod.ext same (Option.some.inj held).symm)))
      · exact .inl held
    · exact .inr (.tail _ later)

/-- What a table of a list holds stands in the list. -/
theorem mem_of_get?_ofList {entries : List (κ × ν)} (found : (ofList entries).get? k = some value) :
    (k, value) ∈ entries :=
  (mem_of_get?_insertAll found).resolve_left (by simp [empty, get?])

theorem exists_get?_ofList {entries : List (κ × ν)} (listed : k ∈ entries.map Prod.fst) :
    ∃ value, (ofList entries).get? k = some value :=
  exists_get?_of_mem_keys (mem_keys_insertAll.mpr (.inr listed))

/-- Entries without a key that stands twice are written one behind the other. -/
theorem entries_insertAll {entries : List (κ × ν)}
    (distinct : (m.keys ++ entries.map Prod.fst).Nodup) :
    (m.insertAll entries).entries = m.entries ++ entries := by
  induction entries generalizing m with
  | nil => simp [insertAll]
  | cons e rest ih =>
    have step : m.insertAll (e :: rest) = (m.insert e.1 e.2).insertAll rest := rfl
    have absent : e.1 ∉ m.keys := fun present =>
      (List.nodup_append.mp distinct).2.2 e.1 present e.1 (by simp) rfl
    have written : (m.insert e.1 e.2).keys = m.keys ++ [e.1] := by rw [keys_insert, if_neg absent]
    rw [step, ih (by rw [written, List.append_assoc]; exact distinct),
      insert_of_not_contains (contains_eq_false_iff.mpr absent), List.append_assoc]
    rfl

/-- The entries of a table make it up again. -/
theorem ofList_entries (m : OrderedMap κ ν) : ofList m.entries = m := by
  ext1
  have distinct : ((empty : OrderedMap κ ν).keys ++ m.entries.map Prod.fst).Nodup := m.nodup_keys
  exact entries_insertAll distinct

/-- Where a property of values tells the key, there is at most one value with it. -/
theorem countP_values (m : OrderedMap κ ν) {holds : ν → Bool}
    (only : ∀ e ∈ m.entries, holds e.2 = true → e.1 = k) :
    m.values.countP holds = (m.get? k).toList.countP holds := by
  obtain ⟨entries, distinct⟩ := m
  unfold values get?
  dsimp only at only ⊢
  induction entries with
  | nil => rfl
  | cons e rest ih =>
    rw [List.map_cons, List.nodup_cons] at distinct
    have later := ih distinct.2 fun e inside => only e (.tail _ inside)
    by_cases here : e.1 = k
    · have none : (rest.map Prod.snd).countP holds = 0 := by
        rw [List.countP_eq_zero]
        rintro value inside
        obtain ⟨e', member, rfl⟩ := List.mem_map.mp inside
        intro held
        have same := only e' (.tail _ member) held
        exact distinct.1 (here.trans same.symm ▸ List.mem_map_of_mem member)
      simp [here, none, List.countP_cons]
    · have other : holds e.2 = false := by
        by_contra held
        exact here (only e (.head _) (by simpa using held))
      simp [here, other, later]

/-- What is found under a key in a table made of the changed values of another. -/
theorem get?_ofList_filterMap {μ : Type v} {change : ν → Option μ} :
    (ofList (m.entries.filterMap fun e => (change e.2).map fun value => (e.1, value))).get? k =
      (m.get? k).bind change := by
  have listed : ∀ value, (k, value) ∈ m.entries.filterMap
      (fun e => (change e.2).map fun value => (e.1, value)) ↔
      (m.get? k).bind change = some value := by
    intro value
    simp only [List.mem_filterMap, Option.map_eq_some_iff, Option.bind_eq_some_iff,
      get?_eq_some_iff, Prod.mk.injEq, Prod.exists]
    constructor
    · rintro ⟨_, old, member, _, changed, rfl, rfl⟩
      exact ⟨old, member, changed⟩
    · rintro ⟨old, member, changed⟩
      exact ⟨k, old, member, value, changed, rfl, rfl⟩
  ext value
  constructor
  · exact fun found => (listed value).mp (mem_of_get?_ofList found)
  · intro found
    have member := (listed value).mpr found
    obtain ⟨value', found'⟩ := exists_get?_ofList (List.mem_map_of_mem (f := Prod.fst) member)
    have same := ((listed value').mp (mem_of_get?_ofList found')).symm.trans found
    rwa [Option.some.inj same] at found'

theorem get?_mapValues {μ : Type v} {change : κ → ν → μ} :
    (m.mapValues change).get? k = (m.get? k).map (change k) := by
  ext value
  simp only [get?_eq_some_iff, mapValues, List.mem_map, Option.map_eq_some_iff, Prod.mk.injEq,
    Prod.exists]
  constructor
  · rintro ⟨_, old, member, rfl, rfl⟩
    exact ⟨old, member, rfl⟩
  · rintro ⟨old, member, rfl⟩
    exact ⟨k, old, member, rfl, rfl⟩

omit [DecidableEq κ] in
theorem values_mapValues {μ : Type v} {change : ν → μ} :
    (m.mapValues fun _ value => change value).values = m.values.map change := by
  simp [values, mapValues, Function.comp_def]

omit [DecidableEq κ] in
theorem mapValues_id (m : OrderedMap κ ν) : m.mapValues (fun _ value => value) = m := by
  ext1
  exact List.map_id m.entries

/-- Writing what is there already changes nothing. -/
theorem insert_of_get? (held : m.get? k = some value) : m.insert k value = m := by
  have unchanged : ∀ e ∈ m.entries, replaceEntry k value e = e := by
    intro e member
    unfold replaceEntry
    split
    · rename_i same
      have held' := get?_eq_some_iff.mpr member
      rw [same] at held'
      exact Prod.ext same.symm (Option.some.inj (held.symm.trans held'))
    · rfl
  refine OrderedMap.ext ?_
  rw [insert_of_contains (contains_eq_true_iff.mpr (mem_keys_of_get? held)),
    List.map_congr_left unchanged, List.map_id']

/-- Tables with the same keys in the same order and the same values are the same. -/
theorem ext_get? {m m' : OrderedMap κ ν} (keys : m.keys = m'.keys)
    (values : ∀ k, m.get? k = m'.get? k) : m = m' := by
  refine OrderedMap.ext ?_
  have entries : ∀ m : OrderedMap κ ν, m.entries.map (fun e => (e.1, some e.2)) =
      m.keys.map fun k => (k, m.get? k) := by
    intro m
    rw [OrderedMap.keys, List.map_map]
    refine List.map_congr_left fun e member => ?_
    exact congrArg (e.1, ·) (get?_eq_some_iff.mpr member).symm
  have same : m.entries.map (fun e => (e.1, some e.2)) =
      m'.entries.map fun e => (e.1, some e.2) := by
    rw [entries, entries, keys, funext values]
  refine List.map_injective_iff.mpr (fun e e' pair => ?_) same
  exact Prod.ext (Prod.mk.inj pair).1 (Option.some.inj (Prod.mk.inj pair).2)

theorem get?_insertAll_of_absent {entries : List (κ × ν)} (absent : k ∉ entries.map Prod.fst) :
    (m.insertAll entries).get? k = m.get? k := by
  induction entries generalizing m with
  | nil => rfl
  | cons e rest ih =>
    obtain ⟨other, later⟩ := not_or.mp (mt List.mem_cons.mpr absent)
    have step : m.insertAll (e :: rest) = (m.insert e.1 e.2).insertAll rest := rfl
    rw [step, ih later, get?_insert_of_ne other]

/-- What is written once is there in the end. -/
theorem get?_insertAll_of_mem {entries : List (κ × ν)} (distinct : (entries.map Prod.fst).Nodup)
    (member : (k, value) ∈ entries) : (m.insertAll entries).get? k = some value := by
  induction entries generalizing m with
  | nil => exact nomatch member
  | cons e rest ih =>
    obtain ⟨once, distinct⟩ := List.nodup_cons.mp distinct
    have step : m.insertAll (e :: rest) = (m.insert e.1 e.2).insertAll rest := rfl
    rw [step]
    rcases List.mem_cons.mp member with rfl | later
    · rw [get?_insertAll_of_absent once, get?_insert_self]
    · exact ih distinct later

theorem keys_insertAll_of_mem {entries : List (κ × ν)} (present : ∀ e ∈ entries, e.1 ∈ m.keys) :
    (m.insertAll entries).keys = m.keys := by
  induction entries generalizing m with
  | nil => rfl
  | cons e rest ih =>
    obtain ⟨first, later⟩ := List.forall_mem_cons.mp present
    have step : m.insertAll (e :: rest) = (m.insert e.1 e.2).insertAll rest := rfl
    have same : (m.insert e.1 e.2).keys = m.keys := by rw [keys_insert, if_pos first]
    rw [step, ih fun e member => same ▸ later e member, same]

/-- Writing the entries of a table into one that has its first keys makes up the table. -/
theorem insertAll_entries {m' : OrderedMap κ ν} (first : m'.keys <+: m.keys) :
    m'.insertAll m.entries = m := by
  obtain ⟨rest, order⟩ := first
  obtain ⟨front, back, parts, fronts, backs⟩ := List.map_eq_append_iff.mp order.symm
  have former : (m'.insertAll front).keys = m'.keys := by
    refine keys_insertAll_of_mem fun e member => ?_
    rw [← fronts]
    exact List.mem_map_of_mem member
  have split : m'.insertAll m.entries = (m'.insertAll front).insertAll back := by
    rw [parts]
    exact List.foldl_append
  have keys : (m'.insertAll m.entries).keys = m.keys := by
    have distinct : ((m'.insertAll front).keys ++ back.map Prod.fst).Nodup := by
      rw [former, backs, order]
      exact m.nodup_keys
    rw [split, OrderedMap.keys, entries_insertAll distinct, List.map_append, backs, ← order]
    exact congrArg (· ++ rest) former
  refine ext_get? keys fun k => ?_
  cases held : m.get? k with
  | none =>
    rw [get?_eq_none_iff, keys]
    exact get?_eq_none_iff.mp held
  | some value => exact get?_insertAll_of_mem m.nodup_keys (get?_eq_some_iff.mp held)

/-- Of two writings to a key the second counts. -/
theorem insert_insert {former : ν} : (m.insert k former).insert k value = m.insert k value := by
  refine ext_get? ?_ fun k' => ?_
  · rw [keys_insert, if_pos (mem_keys_insert.mpr (.inl rfl)), keys_insert, keys_insert]
  · rw [get?_insert, get?_insert, get?_insert]
    split <;> rfl

omit [DecidableEq κ] in
theorem filter_eq_self {keep : κ → ν → Bool} (all : ∀ k value, keep k value = true) :
    m.filter keep = m :=
  OrderedMap.ext (List.filter_eq_self.mpr fun e _ => all e.1 e.2)

omit [DecidableEq κ] in
theorem filter_filter {keep also : κ → ν → Bool} : (m.filter keep).filter also =
    m.filter fun k value => keep k value && also k value := by
  refine OrderedMap.ext ?_
  simp only [filter, List.filter_filter, Bool.and_comm]

/-- Writing to a key that a filter leaves out changes nothing of what the filter leaves. -/
theorem filter_insert_of_not {keep : κ → Bool} (out : keep k = false) :
    (m.insert k value).filter (fun k _ => keep k) = m.filter fun k _ => keep k := by
  have keys : ∀ m : OrderedMap κ ν, (m.filter fun k _ => keep k).keys = m.keys.filter keep := by
    intro m
    simp only [filter, OrderedMap.keys, List.filter_map]
    rfl
  refine ext_get? ?_ fun k' => ?_
  · rw [keys, keys, keys_insert]
    split
    · rfl
    · simp [out]
  · rw [get?_filter, get?_filter, get?_insert]
    split
    · rename_i same
      have left : ∀ held : Option ν, held.filter (fun _ => keep k) = none := by simp [out]
      rw [same, left, left]
    · rfl

theorem erase_of_absent (absent : m.get? k = none) : m.erase k = m := by
  refine OrderedMap.ext (List.filter_eq_self.mpr fun e member => ?_)
  have other : e.1 ≠ k := by
    rintro rfl
    exact get?_eq_none_iff.mp absent (List.mem_map_of_mem member)
  simpa using other

theorem modify_of_absent {change : ν → ν} (absent : m.get? k = none) : m.modify k change = m := by
  rw [modify, absent]

theorem keys_modify {change : ν → ν} : (m.modify k change).keys = m.keys := by
  unfold modify
  split
  · rename_i held
    rw [keys_insert, if_pos (mem_keys_of_get? held)]
  · rfl

theorem keys_erase : (m.erase k).keys = m.keys.filter (· ≠ k) := by
  simp only [erase, filter, keys, List.filter_map]
  rfl

/-- Removing a key that has just come takes the table back to where it was. -/
theorem erase_insert (absent : m.get? k = none) : (m.insert k value).erase k = m := by
  refine ext_get? ?_ fun k' => ?_
  · rw [keys_erase, keys_insert, if_neg (get?_eq_none_iff.mp absent), List.filter_append]
    have kept : m.keys.filter (· ≠ k) = m.keys := by rw [← keys_erase, erase_of_absent absent]
    rw [kept, List.filter_cons_of_neg (by simp), List.filter_nil, List.append_nil]
  · rw [get?_erase, get?_insert]
    by_cases same : k' = k
    · rw [if_pos same, same, absent]
    · rw [if_neg same, if_neg same]

/-- Removing one key and writing to another may change places. -/
theorem erase_insert_of_ne (other : k ≠ k') :
    (m.insert k value).erase k' = (m.erase k').insert k value := by
  refine ext_get? ?_ fun key => ?_
  · rw [keys_erase, keys_insert, keys_insert, keys_erase]
    by_cases present : k ∈ m.keys
    · rw [if_pos present, if_pos (List.mem_filter.mpr ⟨present, by simpa using other⟩)]
    · rw [if_neg present, if_neg fun left => present (List.mem_filter.mp left).1, List.filter_append]
      simp [other]
  · rw [get?_erase, get?_insert, get?_insert, get?_erase]
    by_cases same : key = k
    · rw [same, if_neg other, if_pos rfl, if_pos rfl]
    · rw [if_neg same, if_neg same]

omit [DecidableEq κ] in
theorem values_filter {keep : ν → Bool} :
    (m.filter fun _ value => keep value).values = m.values.filter keep := by
  simp only [values, filter, List.filter_map]
  rfl

/-- The place of a key that a filter leaves is the number of keys before it that are left too. -/
theorem index?_filter {keep : κ → Bool} (kept : keep k = true) : (m.filter fun k _ => keep k).index? k =
    (m.index? k).map fun i => (m.keys.take i).countP keep := by
  obtain ⟨entries, nodup⟩ := m
  simp only [index?, filter, keys]
  clear nodup
  induction entries with
  | nil => rfl
  | cons e rest ih =>
    by_cases here : e.1 = k
    · subst here
      simp [kept, List.findIdx?_cons]
    · by_cases stays : keep e.1 = true
      · simp [stays, List.findIdx?_cons, here, ih, Function.comp_def]
      · simp [stays, List.findIdx?_cons, here, ih, Function.comp_def]

theorem getElem?_of_index? {i : Nat} (place : m.index? k = some i) : m.keys[i]? = some k := by
  obtain ⟨inside, here, -⟩ := List.findIdx?_eq_some_iff_getElem.mp place
  rw [keys, List.getElem?_map, List.getElem?_eq_getElem inside]
  simpa using here

omit [DecidableEq κ] in
theorem countP_take_lt {keep : κ → Bool} {l : List κ} {i j : Nat} (order : i < j) (here : l[i]? = some k)
    (kept : keep k = true) : (l.take i).countP keep < (l.take j).countP keep := by
  have next : l.take (i + 1) = l.take i ++ [k] := by
    rw [List.take_add_one, here]
    rfl
  have within : (l.take (i + 1)).countP keep ≤ (l.take j).countP keep :=
    (List.take_sublist_take_left order).countP_le
  rw [next, List.countP_append] at within
  simp [kept] at within
  omega

/-- Of two keys that a filter leaves the same one comes first. -/
theorem index?_filter_lt_iff {keep : κ → Bool} {i j : Nat} (place : m.index? k = some i)
    (place' : m.index? k' = some j) (kept : keep k = true) (kept' : keep k' = true) :
    (m.keys.take i).countP keep < (m.keys.take j).countP keep ↔ i < j := by
  have first := getElem?_of_index? place
  have second := getElem?_of_index? place'
  constructor
  · intro order
    by_contra late
    rcases Nat.lt_or_eq_of_le (Nat.le_of_not_lt late) with behind | same
    · exact Nat.lt_asymm order (countP_take_lt behind second kept')
    · subst same
      exact Nat.lt_irrefl _ order
  · exact fun order => countP_take_lt order first kept

/-- Tables of one size have the same values if those of one are in the other. -/
theorem get?_eq_of_size {m m' : OrderedMap κ ν} (size : m.size = m'.size)
    (within : ∀ e ∈ m.entries, m'.get? e.1 = some e.2) (k : κ) : m.get? k = m'.get? k := by
  have perm : m.entries.Perm m'.entries := by
    have subset : m.entries ⊆ m'.entries := fun e member => get?_eq_some_iff.mp (within e member)
    exact (List.subperm_of_subset m.nodup_keys.of_map subset).perm_of_length_le (Nat.le_of_eq size.symm)
  ext value
  rw [get?_eq_some_iff, get?_eq_some_iff, perm.mem_iff]

/-- Every value of one table stands under its key in the other. -/
def Within (small large : OrderedMap κ ν) : Prop :=
  ∀ {k value}, small.get? k = some value → large.get? k = some value

theorem Within.refl : m.Within m := fun held => held

theorem Within.trans {m₁ m₂ m₃ : OrderedMap κ ν} (first : m₁.Within m₂) (second : m₂.Within m₃) :
    m₁.Within m₃ := fun held => second (first held)

end OrderedMap

theorem OrderedSet.mem_ofMembers {κ : Type} [DecidableEq κ] {members : List κ} {k : κ} :
    k ∈ (OrderedSet.ofMembers members).keys ↔ k ∈ members := by
  rw [ofMembers, OrderedMap.ofList, OrderedMap.mem_keys_insertAll]
  simp [OrderedMap.empty, OrderedMap.keys, Function.comp_def]

/-- The members of a set make it up again. -/
theorem OrderedSet.ofMembers_keys {κ : Type} [DecidableEq κ] (s : OrderedSet κ) :
    ofMembers s.keys = s := by
  have entries : s.keys.map (fun k => (k, ())) = s.entries := by
    rw [OrderedMap.keys, List.map_map]
    exact List.map_id s.entries
  rw [ofMembers, entries, OrderedMap.ofList_entries]

end NodeScript
