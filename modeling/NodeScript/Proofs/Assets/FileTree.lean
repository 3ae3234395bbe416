import NodeScript.Assets.Files
import NodeScript.Proofs.OrderedMap

/-!
Files that are written to a tree. What is written at a path is read there afterwards, and what is read
at a path that leads elsewhere is what it was. Only devices keep nothing of what is written to them, and
a tree has no devices but those it came with.
-/

namespace NodeScript

/-! ### Paths within a directory -/

section Paths

variable {path directory name : String}

/-- The text is the name of something in a directory. -/
structure NamesEntry (name : String) : Prop where
  whole : '/' ∉ name.toList
  ne_empty : name ≠ ""
  ne_dot : name ≠ "."
  ne_dots : name ≠ ".."

theorem pathParts_append_slash (directory path : String) :
    pathParts (directory ++ "/" ++ path) = pathParts directory ++ pathParts path := by
  have split : (directory ++ "/" ++ path).toList = directory.toList ++ '/' :: path.toList := by simp
  rw [pathParts, split, List.splitOn_append_cons_self, List.map_append]
  rfl

/-- What stands behind a slash in a path goes on where the path before it has led. -/
theorem pathNames_append_slash (directory path : String) :
    pathNames (directory ++ "/" ++ path) =
      pathNames directory ++ (pathParts path).filter fun part => part ≠ "" && part ≠ "." := by
  have some_ : pathParts directory ≠ [] := by simp [pathParts]
  obtain ⟨first, rest, parts⟩ := List.exists_cons_of_ne_nil some_
  simp only [pathNames, pathParts_append_slash, parts, List.cons_append, List.head?_cons]
  split
  · rw [List.cons_append, ← List.filter_append, List.cons_append]
  · rw [← List.filter_append, List.cons_append]

namespace NamesEntry

theorem pathParts_eq (entry : NamesEntry name) : pathParts name = [name] := by
  rw [pathParts, List.splitOn_eq_singleton entry.whole, List.map_singleton, String.ofList_toList]

theorem isAbsolutePath_eq (entry : NamesEntry name) : isAbsolutePath name = false :=
  decide_eq_false fun first => entry.whole (List.mem_of_head? first)

theorem pathNames_behind (entry : NamesEntry name) (directory : String) :
    pathNames (directory ++ "/" ++ name) = pathNames directory ++ [name] := by
  rw [pathNames_append_slash, entry.pathParts_eq]
  simp [entry.ne_empty, entry.ne_dot]

theorem pathNames_joinPath (entry : NamesEntry name) (directory : String) :
    pathNames (joinPath directory name) = pathNames directory ++ [name] := by
  rw [joinPath, entry.isAbsolutePath_eq, Bool.false_or]
  split
  · rename_i empty
    obtain rfl := String.isEmpty_iff.mp empty
    have none : pathNames "" = [] := by decide
    rw [none, pathNames, entry.pathParts_eq]
    simp [entry.ne_empty, entry.ne_dot]
  · split
    · -- The slash at the end of the directory names nothing.
      rename_i slash
      obtain ⟨before, split⟩ := List.getLast?_eq_some_iff.mp slash
      obtain rfl : directory = String.ofList before ++ "/" := by
        rw [← String.toList_inj, split]
        simp
      have nothing := pathNames_append_slash (String.ofList before) ""
      rw [String.append_empty] at nothing
      have none : (pathParts "").filter (fun part => part ≠ "" && part ≠ ".") = [] := by decide
      rw [entry.pathNames_behind, nothing, none, List.append_nil]
    · exact entry.pathNames_behind directory

theorem isAbsolutePath_joinPath (entry : NamesEntry name) (directory : String) :
    isAbsolutePath (joinPath directory name) = isAbsolutePath directory := by
  rw [joinPath, entry.isAbsolutePath_eq, Bool.false_or]
  split
  · rename_i empty
    obtain rfl := String.isEmpty_iff.mp empty
    rw [entry.isAbsolutePath_eq]
    rfl
  · rename_i some_
    have chars : directory.toList ≠ [] := fun none => some_ (by simpa using none)
    obtain ⟨first, rest, split⟩ := List.exists_cons_of_ne_nil chars
    split
    · simp [isAbsolutePath, split]
    · simp [isAbsolutePath, split]

end NamesEntry

end Paths

/-- The entry keeps nothing of what is written to it that could be read. -/
def FileEntry.isDevice : FileEntry → Bool
  | .void => true
  | .full => true
  | .outlet _ => true
  | _ => false

namespace FileTree

variable {t t' : FileTree} {way names led : List String} {path directory name text : String}

theorem bind_eq_ok {α β : Type} {x : Except FileFault α} {f : α → Except FileFault β} {b : β} :
    x >>= f = .ok b ↔ ∃ a, x = .ok a ∧ f a = .ok b := by
  cases x with
  | error fault =>
    constructor
    · exact fun failed => nomatch failed
    · rintro ⟨_, failed, _⟩
      exact nomatch failed
  | ok a =>
    constructor
    · exact fun done => ⟨a, rfl, done⟩
    · rintro ⟨a', same, done⟩
      cases same
      exact done

/-! ### Ways -/

theorem wayFrom_append (t : FileTree) (start names more : List String) :
    t.wayFrom start (names ++ more) = t.wayFrom start names >>= fun led => t.wayFrom led more := by
  induction names generalizing start with
  | nil => rfl
  | cons name rest ih =>
    rw [List.cons_append, wayFrom, wayFrom]
    split
    · exact ih start
    · split
      · split
        · exact ih _
        · rfl
        · rfl
      · exact ih _

/-- Names lead where they have led, in a tree that has the same directories. -/
theorem wayFrom_of_directories
    (same : ∀ w, t'.entry? w = some .directory ↔ t.entry? w = some .directory)
    {start : List String} (found : t.wayFrom start names = .ok led) :
    t'.wayFrom start names = .ok led := by
  induction names generalizing start with
  | nil => exact found
  | cons name rest ih =>
    rw [wayFrom] at found ⊢
    split
    · rename_i dot
      rw [if_pos dot] at found
      exact ih found
    · rename_i noDot
      rw [if_neg noDot] at found
      split
      · rename_i dots
        rw [if_pos dots] at found
        split at found
        · rename_i here
          rw [(same start).mpr here]
          exact ih found
        · exact nomatch found
        · exact nomatch found
      · rename_i noDots
        rw [if_neg noDots] at found
        exact ih found

theorem wayTo_eq_ok_iff : t.wayTo path = .ok way ↔ checkPath path = .ok () ∧ path.isEmpty = false ∧
    t.wayFrom (t.startOf path) (pathNames path) = .ok way := by
  rw [wayTo, bind_eq_ok]
  cases path.isEmpty with
  | true =>
    constructor
    · rintro ⟨_, _, failed⟩
      exact nomatch failed
    · rintro ⟨_, failed, _⟩
      exact nomatch failed
  | false =>
    constructor
    · rintro ⟨⟨⟩, checked, found⟩
      exact ⟨checked, rfl, found⟩
    · rintro ⟨checked, -, found⟩
      exact ⟨(), checked, found⟩

/-- The way to something in a directory ends with its name. -/
theorem wayTo_joinPath (entry : NamesEntry name) (found : t.wayTo (joinPath directory name) = .ok way) :
    ∃ around, t.wayFrom (t.startOf directory) (pathNames directory) = .ok around ∧
      way = around ++ [name] := by
  obtain ⟨-, -, found⟩ := wayTo_eq_ok_iff.mp found
  rw [startOf, entry.isAbsolutePath_joinPath, ← startOf, entry.pathNames_joinPath, wayFrom_append,
    bind_eq_ok] at found
  obtain ⟨around, leads, last⟩ := found
  rw [wayFrom, if_neg entry.ne_dot, if_neg entry.ne_dots, wayFrom] at last
  exact ⟨around, leads, (Except.ok.inj last).symm⟩

/-! ### One entry written -/

/-- The tree with an entry at the end of a way. -/
def withEntry (t : FileTree) (way : List String) (entry : FileEntry) : FileTree :=
  { t with entries := t.entries.insert way entry }

theorem entry?_withEntry_of_ne {entry : FileEntry} {w : List String} (other : w ≠ way) :
    FileTree.entry? (t.withEntry way entry) w = t.entry? w := by
  rw [ entry?, entry?, withEntry, OrderedMap.get?_insert_of_ne other]

theorem entry?_withEntry_self {entry : FileEntry} (inside : t.entry? way ≠ some .directory) :
    FileTree.entry? (t.withEntry way entry) way = some entry := by
  have named : ¬ way.isEmpty = true := by
    intro root
    rw [ entry?, if_pos root] at inside
    exact inside rfl
  rw [ entry?, if_neg named, withEntry]
  exact OrderedMap.get?_insert_self

/-- What writing a text at the end of a way has done: there is a file of the text, or a device that has
been there before, and all else is as it was. -/
structure WroteAt (t t' : FileTree) (way : List String) (text : String) : Prop where
  home : t'.home = t.home
  others : ∀ w, w ≠ way → t'.entry? w = t.entry? w
  before : t.entry? way ≠ some .directory
  now : t'.entry? way = some (.file text) ∨
    ∃ device device', t.entry? way = some device ∧ device.isDevice = true ∧
      t'.entry? way = some device' ∧ device'.isDevice = true

theorem writeText_wroteAt (written : t.writeText path text = .ok t') :
    ∃ way, t.wayTo path = .ok way ∧ asksForDirectory path = false ∧ WroteAt t t' way text := by
  obtain ⟨way, found, written⟩ := bind_eq_ok.mp written
  refine ⟨way, found, ?_⟩
  have filed : t.entry? way ≠ some .directory → t' = t.withEntry way (.file text) →
      WroteAt t t' way text := by
    rintro inside rfl
    exact ⟨rfl, fun _ => entry?_withEntry_of_ne, inside, .inl (entry?_withEntry_self inside)⟩
  dsimp only at written
  cases inside : asksForDirectory path with
  | true =>
    rw [inside] at written
    split at written
    · exact nomatch written
    · exact nomatch written
    · split at written <;> exact nomatch written
  | false =>
    rw [inside] at written
    refine ⟨rfl, ?_⟩
    split at written
    · exact nomatch written
    · rename_i entry noDirectory there
      have inside : t.entry? way ≠ some .directory := by
        rw [there]
        exact fun directory => noDirectory (Option.some.inj directory)
      cases entry with
      | directory => exact absurd there inside
      | file former => exact filed inside (Except.ok.inj written).symm
      | void =>
        cases written
        exact ⟨rfl, fun _ _ => rfl, inside, .inr ⟨_, _, there, rfl, there, rfl⟩⟩
      | full => exact nomatch written
      | outlet shown =>
        cases written
        exact ⟨rfl, fun _ => entry?_withEntry_of_ne, inside,
          .inr ⟨_, _, there, rfl, entry?_withEntry_self inside, rfl⟩⟩
    · rename_i absent
      split at written
      · exact nomatch written
      · exact filed (by simp [absent]) (Except.ok.inj written).symm

namespace WroteAt

theorem directories (wrote : WroteAt t t' way text) (w : List String) :
    t'.entry? w = some .directory ↔ t.entry? w = some .directory := by
  by_cases here : w = way
  · subst here
    have after : t'.entry? w ≠ some .directory := by
      obtain file | ⟨_, device', _, _, there, isDevice⟩ := wrote.now
      · simp [file]
      · rintro directory
        rw [directory] at there
        cases there
        exact nomatch isDevice
    exact ⟨fun directory => absurd directory after, fun directory => absurd directory wrote.before⟩
  · rw [wrote.others w here]

theorem wayTo (wrote : WroteAt t t' way text) {w : List String} (found : t.wayTo path = .ok w) :
    t'.wayTo path = .ok w := by
  obtain ⟨checked, some_, leads⟩ := wayTo_eq_ok_iff.mp found
  refine wayTo_eq_ok_iff.mpr ⟨checked, some_, ?_⟩
  rw [startOf, wrote.home]
  exact wayFrom_of_directories wrote.directories leads

/-- What was written is read, if not to a device. -/
theorem readText (wrote : WroteAt t t' way text) (found : t.wayTo path = .ok way)
    (file : asksForDirectory path = false)
    (plain : ∀ device, t.entry? way = some device → device.isDevice = false) :
    t'.readText path = .ok text := by
  have now : t'.entry? way = some (.file text) := by
    obtain now | ⟨device, _, there, isDevice, _⟩ := wrote.now
    · exact now
    · rw [plain device there] at isDevice
      exact nomatch isDevice
  rw [FileTree.readText, find, wrote.wayTo found]
  simp [now, file, Bind.bind, Except.bind, Pure.pure, Except.pure]

/-- What has been read at a path that leads elsewhere is read there still. -/
theorem readText_other (wrote : WroteAt t t' way text) {former : String}
    (elsewhere : t.wayTo path ≠ .ok way) (read : t.readText path = .ok former) :
    t'.readText path = .ok former := by
  obtain ⟨entry, found, -⟩ := bind_eq_ok.mp read
  obtain ⟨w, found, -⟩ := bind_eq_ok.mp found
  have other : w ≠ way := fun same => elsewhere (same ▸ found)
  rw [FileTree.readText, find, found] at read
  rw [FileTree.readText, find, wrote.wayTo found]
  simp only [Bind.bind, Except.bind, wrote.others w other] at read ⊢
  cases there : t.entry? w with
  | none =>
    rw [there] at read
    exact nomatch read
  | some entry =>
    rw [there] at read
    cases entry <;> exact read

end WroteAt

/-! ### Devices -/

/-- There are no devices but those that every tree has. -/
def DevicesInPlace (t : FileTree) : Prop :=
  ∀ way entry, t.entry? way = some entry → entry.isDevice = true →
    ∃ device ∈ standardDevices, way = ["dev", device.1]

namespace DevicesInPlace

theorem empty : FileTree.empty.DevicesInPlace := by
  have all : ∀ e ∈ FileTree.empty.entries.entries, e.2.isDevice = true →
      ∃ device ∈ standardDevices, e.1 = ["dev", device.1] := by decide
  intro way entry there isDevice
  rw [ entry?] at there
  split at there
  · cases there
    cases isDevice
  · exact all (way, entry) (OrderedMap.get?_eq_some_iff.mp there) isDevice

/-- A way whose last name is that of no device leads to none. -/
theorem plain (inPlace : t.DevicesInPlace) (apart : name ∉ standardDevices.map (·.1))
    {around : List String} {entry : FileEntry} (there : t.entry? (around ++ [name]) = some entry) :
    entry.isDevice = false := by
  refine Bool.eq_false_iff.mpr fun isDevice => ?_
  obtain ⟨device, member, same⟩ := inPlace _ _ there isDevice
  have last : name = device.1 := by
    simpa using congrArg List.getLast? same
  exact apart (last ▸ List.mem_map_of_mem member)

theorem wroteAt (inPlace : t.DevicesInPlace) (wrote : WroteAt t t' way text) : t'.DevicesInPlace := by
  intro w entry there isDevice
  by_cases here : w = way
  · subst here
    obtain file | ⟨device, _, before, wasDevice, _⟩ := wrote.now
    · rw [file] at there
      cases there
      exact nomatch isDevice
    · exact inPlace w device before wasDevice
  · rw [wrote.others w here] at there
    exact inPlace w entry there isDevice

theorem writeText (inPlace : t.DevicesInPlace) (written : t.writeText path text = .ok t') :
    t'.DevicesInPlace := by
  obtain ⟨way, -, -, wrote⟩ := writeText_wroteAt written
  exact inPlace.wroteAt wrote

theorem makeDirectory (inPlace : t.DevicesInPlace) {start : List String}
    (made : t.makeDirectory start names = .ok t') : t'.DevicesInPlace := by
  obtain ⟨way, -, made⟩ := bind_eq_ok.mp made
  split at made
  · exact nomatch made
  · rename_i absent
    split at made
    · obtain rfl : t.withEntry way .directory = t' := Except.ok.inj made
      intro w entry there isDevice
      by_cases here : w = way
      · subst here
        rw [entry?_withEntry_self (by simp [absent])] at there
        cases there
        exact nomatch isDevice
      · rw [entry?_withEntry_of_ne here] at there
        exact inPlace w entry there isDevice
    · exact nomatch made

theorem ensureDirectory (inPlace : t.DevicesInPlace) {start : List String}
    (made : t.ensureDirectory start names = .ok t') : t'.DevicesInPlace := by
  rw [FileTree.ensureDirectory] at made
  split at made
  · rename_i done
    obtain rfl := Except.ok.inj made
    exact inPlace.makeDirectory done
  · split at made
    · obtain rfl := Except.ok.inj made
      exact inPlace
    · exact nomatch made

theorem makeAround (inPlace : t.DevicesInPlace) (start reversed : List String) :
    (t.makeAround start reversed).1.DevicesInPlace := by
  induction reversed with
  | nil => exact inPlace
  | cons last before ih =>
    rw [FileTree.makeAround]
    split
    · exact inPlace.ensureDirectory ‹_›
    · split
      · rename_i around fault stopped
        rw [stopped] at ih
        exact ih
      · rename_i around done
        rw [done] at ih
        split
        · exact ih.ensureDirectory ‹_›
        · exact ih
    · exact inPlace

theorem createDirectories (inPlace : t.DevicesInPlace) (path : String) :
    (t.createDirectories path).1.DevicesInPlace := by
  rw [FileTree.createDirectories]
  split
  · exact inPlace.makeAround _ _
  · exact inPlace

theorem withFile (inPlace : t.DevicesInPlace) (path text : String) :
    (t.withFile path text).DevicesInPlace := by
  have around := inPlace.createDirectories ((parentPath? path).getD "")
  rw [FileTree.withFile]
  cases written : (t.createDirectories ((parentPath? path).getD "")).1.writeText path text with
  | error fault => exact around
  | ok after => exact around.writeText written

end DevicesInPlace

end FileTree

end NodeScript
