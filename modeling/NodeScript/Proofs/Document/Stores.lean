import NodeScript.Document.Tree
import NodeScript.Document.Reader
import NodeScript.Proofs.Document.Numbers
import NodeScript.Proofs.Document.Quoted
import NodeScript.Proofs.OrderedMap

/-!
Trees that readers understand. A tree stores a value for a reader if the reader finds the value in
the written tree, at whatever depth it stands, and leaves what follows. Every reader that is put
together from others has a rule here that puts what is stored together in the same way, so that a
codec is told right by following its reader.
-/

namespace NodeScript

/-- The place of a value of a document that has switched nothing on. -/
def plainPlace (level : Nat) : ReadContext := ⟨.standard, level, false⟩

/-- A reader finds a value in a written tree. -/
structure Stores {α : Type} (read : Reader α) (t : Tree) (a : α) : Prop where
  opens : ∀ depth, Opens (t.prettyChars depth)
  reads : ∀ depth level rest, Closes rest →
    Scan.Takes (read (plainPlace level)) (t.prettyChars depth ++ rest) a rest

namespace Stores

open Scan

variable {α β γ κ ν κ' ν' : Type} {read : Reader α} {t : Tree} {a : α}

/-! ### Values -/

theorem map (stored : Stores read t a) (change : α → β) : Stores (.map change read) t (change a) :=
  ⟨stored.opens, fun depth level rest closes => (stored.reads depth level rest closes).map change⟩

theorem refine (stored : Stores read t a) {check : α → Except String β} {b : β}
    (checked : check a = .ok b) : Stores (.refine check read) t b := by
  refine ⟨stored.opens, fun depth level rest closes => ?_⟩
  refine (stored.reads depth level rest closes).bind ?_
  rw [checked]
  exact .pure _ _

theorem inOwner (stored : Stores read t a) (owner : String) :
    Stores (fun c => (read c).inOwner owner) t a :=
  ⟨stored.opens, fun depth level rest closes =>
    (stored.reads depth level rest closes).inOwner owner⟩

theorem text (value : String) : Stores .text (.text value) value := by
  refine ⟨fun depth => ?_, fun depth level rest _ => ?_⟩
  · rw [Tree.prettyChars]
    have quote : (quoteStored value).toList =
        '"' :: (value.toList.flatMap (escapeVisible true) ++ ['"']) := by
      simp [quoteStored]
    exact ⟨'"', _, quote, by decide, by decide⟩
  · rw [Tree.prettyChars]
    exact quotedText_taken value rest

theorem bool (value : Bool) : Stores .bool (encodeBool value) value := by
  have written (depth : Nat) : (encodeBool value).prettyChars depth =
      (if value then "true" else "false").toList := by
    rw [encodeBool, Tree.prettyChars]
  refine ⟨fun depth => ?_, fun depth level rest closes => ?_⟩
  · rw [written]
    cases value <;> exact ⟨_, _, rfl, by decide, by decide⟩
  · rw [written]
    unfold Reader.bool
    cases value with
    | true => exact (word?_found "true" closes.nameEnds).bind (.pure _ _)
    | false =>
      have other : ¬ "true".toList <+: "false".toList ++ rest := by simp
      exact (word?_other other).bind
        ((word?_found "false" closes.nameEnds).bind (.pure _ _))

theorem integer {width : IntegerWidth} {n : Int} (held : width.holds n = true) :
    Stores (.integer width) (encodeInteger n) n := by
  refine ⟨fun depth => ?_, fun depth level rest closes => ?_⟩
  · rw [encodeInteger, Tree.prettyChars]
    exact opens_intText n
  · rw [encodeInteger, Tree.prettyChars]
    exact integer_read held closes

theorem prettyChars_encodeReading (r : Reading) (depth : Nat) :
    (encodeReading r).prettyChars depth = (NumberStyle.stored.render r).toList := by
  unfold encodeReading
  split <;> rw [Tree.prettyChars]

theorem single (x : Single) : Stores .single (encodeReading x.read) x.quieted := by
  refine ⟨fun depth => ?_, fun depth level rest closes => ?_⟩
  · rw [prettyChars_encodeReading]
    exact opens_render x.read
  · rw [prettyChars_encodeReading]
    exact x.taken closes

theorem double (x : Double) : Stores .double (encodeReading x.read) x.quieted := by
  refine ⟨fun depth => ?_, fun depth level rest closes => ?_⟩
  · rw [prettyChars_encodeReading]
    exact opens_render x.read
  · rw [prettyChars_encodeReading]
    exact x.taken closes

/-! ### Lists and tables -/

section Collections

variable {item : Reader β} {key : Reader κ} {value : Reader ν'}

/-- Items that stand one behind the other are collected, the last one first. -/
theorem passes_collect {ι : Type} {step : Scan β} {front : ι → List Char} {read : ι → β}
    (items : List ι) (opens : ∀ i ∈ items, Opens (front i))
    (reads : ∀ i ∈ items, ∀ rest, Closes rest → Takes step (front i ++ rest) (read i) rest)
    (found : List β) :
    Passes (fun found => do return (← step) :: found) found (items.map front)
      ((items.map read).reverse ++ found) := by
  induction items generalizing found with
  | nil => exact .done
  | cons i items ih =>
    have later := ih (fun j member => opens j (.tail _ member))
      (fun j member => reads j (.tail _ member)) (read i :: found)
    rw [List.map_cons, List.map_cons, List.reverse_cons, List.append_assoc]
    exact .next (opens i (.head _))
      (fun rest closes => (reads i (.head _) rest closes).bind (.pure _ _)) later

theorem prettyItems_map (depth : Nat) (encode : α → Tree) (items : List α) :
    Tree.prettyItems depth (items.map encode) =
      items.map fun a => (encode a).prettyChars depth := by
  induction items with
  | nil => rfl
  | cons a items ih => rw [List.map_cons, Tree.prettyItems, ih, List.map_cons]

theorem prettyEntries_map (depth : Nat) (encodeKey : κ → Tree) (encode : ν → Tree)
    (entries : List (κ × ν)) :
    Tree.prettyEntries depth (entries.map fun e => (encodeKey e.1, encode e.2)) =
      entries.map fun e =>
        (encodeKey e.1).prettyChars depth ++ ':' :: ' ' :: (encode e.2).prettyChars depth := by
  induction entries with
  | nil => rfl
  | cons e entries ih => rw [List.map_cons, Tree.prettyEntries, ih, List.map_cons]

theorem opens_bracketed {opening : Char} (plain : isLayout opening = false)
    (sign : opening ∉ ['/', ')', ']', '\x7d', '#']) (closing : Char) (depth : Nat)
    (fronts : List (List Char)) : Opens (bracketedLines opening closing depth fronts) := by
  have written := bracketedLines_append opening closing depth fronts []
  rw [List.append_nil] at written
  exact ⟨opening, _, written, plain, sign⟩

/-- A list of items each of which is stored. -/
theorem listOf {encode : α → Tree} {stored : α → β} {items : List α}
    (each : ∀ a ∈ items, Stores item (encode a) (stored a)) :
    Stores (.list item) (encodeList encode items) (items.map stored) := by
  refine ⟨fun depth => ?_, fun depth level rest closes => ?_⟩
  · rw [encodeList, Tree.prettyChars]
    exact opens_bracketed (by decide) (by decide) _ _ _
  · have passes := passes_collect items (fun a member => (each a member).opens (depth + 1))
      (fun a member => (each a member).reads (depth + 1) (level - 2)) []
    rw [encodeList, Tree.prettyChars, bracketedLines_append, prettyItems_map]
    refine (expect_found '[' _ _).bind ((passes.parts (by decide) depth rest).bind ?_)
    refine (next_cons ']' rest).bind ?_
    rw [List.append_nil, List.reverse_reverse]
    exact .pure _ _

/-- A list of stored items. -/
theorem list {encode : α → Tree} {stored : α → β}
    (each : ∀ a, Stores item (encode a) (stored a)) (items : List α) :
    Stores (.list item) (encodeList encode items) (items.map stored) :=
  listOf fun a _ => each a

/-- A list of items that are stored as they are. -/
theorem listSame {item : Reader α} {encode : α → Tree} (each : ∀ a, Stores item (encode a) a)
    (items : List α) : Stores (.list item) (encodeList encode items) items := by
  have stored := list each items
  rwa [List.map_id'] at stored

theorem entry {tk tv : Tree} {k : κ} {v : ν'} (storedKey : Stores key tk k)
    (stored : Stores value tv v) (depth level : Nat) {rest : List Char} (closes : Closes rest) :
    Takes (Reader.entry key value (plainPlace level))
      (tk.prettyChars depth ++ ':' :: ' ' :: tv.prettyChars depth ++ rest) (k, v) rest := by
  have written : tk.prettyChars depth ++ ':' :: ' ' :: tv.prettyChars depth ++ rest =
      tk.prettyChars depth ++ ':' :: ' ' :: (tv.prettyChars depth ++ rest) := by simp
  rw [written]
  unfold Reader.entry
  refine (storedKey.reads depth level _ (closes_cons (by decide))).bind ?_
  refine (colon_blank ((stored.opens depth).append rest)).bind ?_
  exact (stored.reads depth level rest closes).bind (.pure _ _)

/-- A table by stored keys of values each of which is stored. -/
theorem tableOf [DecidableEq κ] {encodeKey : κ → Tree} {encode : ν → Tree} {stored : ν → ν'}
    (eachKey : ∀ k, Stores key (encodeKey k) k) {m : OrderedMap κ ν}
    (each : ∀ v ∈ m.values, Stores value (encode v) (stored v)) :
    Stores (.table key value) (encodeTable encodeKey encode m)
      (m.mapValues fun _ v => stored v) := by
  refine ⟨fun depth => ?_, fun depth level rest closes => ?_⟩
  · rw [encodeTable, Tree.prettyChars]
    exact opens_bracketed (by decide) (by decide) _ _ _
  · have reads (e : κ × ν) (member : e ∈ m.entries) (rest : List Char) (closes : Closes rest) :=
      entry (eachKey e.1) (each e.2 (List.mem_map_of_mem member)) (depth + 1) (level - 2) closes
    have passes := passes_collect m.entries
      (fun e _ => ((eachKey e.1).opens (depth + 1)).append _) reads []
    rw [encodeTable, Tree.prettyChars, bracketedLines_append, prettyEntries_map]
    refine (expect_found '\x7b' _ _).bind ((passes.parts (by decide) depth rest).bind ?_)
    refine (next_cons '\x7d' rest).bind ?_
    have made : OrderedMap.ofList (m.entries.map fun e => (e.1, stored e.2)) =
        m.mapValues fun _ v => stored v :=
      OrderedMap.ofList_entries (m.mapValues fun _ v => stored v)
    rw [List.append_nil, List.reverse_reverse, made]
    exact .pure _ _

/-- A table of stored values by stored keys. -/
theorem table [DecidableEq κ] {encodeKey : κ → Tree} {encode : ν → Tree} {stored : ν → ν'}
    (eachKey : ∀ k, Stores key (encodeKey k) k) (each : ∀ v, Stores value (encode v) (stored v))
    (m : OrderedMap κ ν) :
    Stores (.table key value) (encodeTable encodeKey encode m)
      (m.mapValues fun _ v => stored v) :=
  tableOf eachKey fun v _ => each v

/-- A table of values that are stored as they are. -/
theorem tableSame [DecidableEq κ] {value : Reader ν} {encodeKey : κ → Tree} {encode : ν → Tree}
    (eachKey : ∀ k, Stores key (encodeKey k) k) (each : ∀ v, Stores value (encode v) v)
    (m : OrderedMap κ ν) : Stores (.table key value) (encodeTable encodeKey encode m) m := by
  have stored := table eachKey each m
  rwa [OrderedMap.mapValues_id] at stored

end Collections

/-! ### Values in parentheses -/

section Parentheses

variable {name : String} {rest : List Char} {depth level : Nat}

theorem atPart_paren (rest : List Char) : AtPart ('(' :: rest) := by
  rintro _ ⟨⟩
  decide

theorem prettyChars_named (name : String) (t : Tree) (depth : Nat) (rest : List Char) :
    (Tree.tuple (some name) [t]).prettyChars depth ++ rest =
      name.toList ++ '(' :: (t.prettyChars depth ++ ')' :: rest) := by
  simp [Tree.prettyChars, Tree.prettyItems, groupName, inlineParts, List.intercalate]

theorem opens_named (plain : PlainName name) (t : Tree) (depth : Nat) :
    Opens ((Tree.tuple (some name) [t]).prettyChars depth) := by
  have written := prettyChars_named name t depth []
  rw [List.append_nil] at written
  rw [written]
  exact plain.opens _

/-- What stands behind an opening parenthesis is read up to the closing one. -/
theorem closed (stored : Stores read t a) (change : α → β) (depth level : Nat)
    (rest : List Char) :
    Takes (do
        Scan.layout
        let v ← read (plainPlace level)
        let _ ← Scan.comma
        Scan.expect ')' .expectedGroupEnd
        return change v)
      (t.prettyChars depth ++ ')' :: rest) (change a) rest := by
  have ends : Closes (')' :: rest) := closes_cons (by decide)
  refine (layout_atPart ((stored.opens depth).append _).atPart).bind ?_
  refine (stored.reads depth level _ ends).bind ?_
  refine (comma_missing ends.atPart (by simp)).bind ?_
  exact (expect_found ')' _ rest).bind (.pure _ _)

/-- A value that may be missing. -/
theorem option {item : Reader β} {encode : α → Tree} {stored : α → β}
    (each : ∀ a, Stores item (encode a) (stored a)) (value : Option α) :
    Stores (.option item) (encodeOption encode value) (value.map stored) := by
  cases value with
  | none =>
    refine ⟨fun depth => ?_, fun depth level rest closes => ?_⟩
    · rw [encodeOption, Tree.prettyChars]
      exact ⟨_, _, rfl, by decide, by decide⟩
    · rw [encodeOption, Tree.prettyChars]
      exact (word?_found "None" closes.nameEnds).bind (.pure _ _)
  | some a =>
    refine ⟨fun depth => opens_named (by decide) _ _, fun depth level rest closes => ?_⟩
    have other (text : List Char) : ¬ "None".toList <+: "Some".toList ++ text := by simp
    rw [encodeOption, prettyChars_named]
    unfold Reader.option
    refine (word?_other (other _)).bind ?_
    rw [if_neg (by decide)]
    refine (word?_found "Some" (nameEnds_cons (by decide))).bind ?_
    rw [if_pos rfl]
    refine (layout_atPart (atPart_paren _)).bind ?_
    rw [if_pos rfl]
    refine (take?_found ['('] _).bind ?_
    exact (each a).closed some depth (level - 1) rest

/-- A value that is stored as it is if it is not missing. -/
theorem optionSame {item : Reader α} {encode : α → Tree} (each : ∀ a, Stores item (encode a) a)
    (value : Option α) : Stores (.option item) (encodeOption encode value) value := by
  have stored := option each value
  rwa [Option.map_id'] at stored

theorem recordName_found (plain : PlainName name) (ends : NameEnds rest) :
    Takes (Reader.recordName .standard name) (name.toList ++ rest) () rest := by
  obtain ⟨c, more, chars, -⟩ := plain.exists_cons
  have named : Scan.wordEnds (name.toList ++ rest) = false := by
    have first := plain.chars c (chars ▸ .head _)
    rw [chars]
    simp [Scan.wordEnds, first]
  have read := name_plain plain ends
  unfold Takes at read ⊢
  unfold Reader.recordName
  rw [named, read]
  simp

theorem wrapped (plain : PlainName name) (stored : Stores read t a) :
    Stores (.wrapped name read) (encodeWrapped name t) a := by
  refine ⟨fun depth => opens_named plain _ _, fun depth level rest closes => ?_⟩
  rw [encodeWrapped, prettyChars_named]
  unfold Reader.wrapped
  rw [if_neg (by simp [plainPlace, DocumentOptions.standard])]
  refine (recordName_found plain (nameEnds_cons (by decide))).bind ?_
  refine (layout_atPart (atPart_paren _)).bind ((expect_found '(' _ _).bind ?_)
  exact stored.closed id depth (level - 1) rest

/-! ### Groups -/

/-- What is read in parentheses ends at the closing one. -/
theorem inParentheses_taken {inside : Scan α} {text : List Char}
    (taken : Takes inside text a (')' :: rest)) (otherwise : DocumentFault) (level : Nat) :
    Takes (Reader.inParentheses otherwise inside (plainPlace level)) ('(' :: text) a rest := by
  have ends : Closes (')' :: rest) := closes_cons (by decide)
  unfold Reader.inParentheses
  rw [if_pos (by rfl)]
  refine (expect_found '(' _ _).bind (taken.bind ((layout_atPart ends.atPart).bind ?_))
  rw [if_pos (by rfl)]
  exact (expect_found ')' _ rest).bind (.pure _ _)

/-- An item of a group is read with the comma behind it, if there is one. -/
theorem item (stored : Stores read t a) (expected : String) (before depth level : Nat)
    {text : List Char} {separated : Bool} (ends : Closes text)
    (next : Takes Scan.comma text separated rest) :
    Takes (Reader.item expected before true read (plainPlace level)) (t.prettyChars depth ++ text)
      (a, separated) rest := by
  have opens := (stored.opens depth).append text
  unfold Reader.item
  refine (layout_atPart opens.atPart).bind ((startsWith_other (opens.head_ne (by simp))).bind ?_)
  rw [if_neg (by decide), if_neg (by decide)]
  exact (stored.reads depth level text ends).bind (next.bind (.pure _ _))

theorem item_next (stored : Stores read t a) (expected : String) (before depth level : Nat)
    {text : List Char} (opens : Opens text) :
    Takes (Reader.item expected before true read (plainPlace level))
      (t.prettyChars depth ++ ',' :: ' ' :: text) (a, true) text :=
  stored.item expected before depth level (closes_cons (by decide))
    (comma_found (layout_blank opens.atPart))

theorem item_last (stored : Stores read t a) (expected : String) (before depth level : Nat)
    (rest : List Char) :
    Takes (Reader.item expected before true read (plainPlace level))
      (t.prettyChars depth ++ ')' :: rest) (a, false) (')' :: rest) :=
  have ends : Closes (')' :: rest) := closes_cons (by decide)
  stored.item expected before depth level ends (comma_missing ends.atPart (by simp))

section Tuples

variable {first : Reader α} {second : Reader β} {third : Reader γ} {t₁ t₂ t₃ : Tree} {b : β} {d : γ}

theorem pair (expected : String) (storedFirst : Stores first t₁ a)
    (storedSecond : Stores second t₂ b) :
    Stores (.pair expected first second) (.tuple none [t₁, t₂]) (a, b) := by
  have written (depth : Nat) (rest : List Char) :
      (Tree.tuple none [t₁, t₂]).prettyChars depth ++ rest = '(' :: (t₁.prettyChars depth ++
        ',' :: ' ' :: (t₂.prettyChars depth ++ ')' :: rest)) := by
    simp [Tree.prettyChars, Tree.prettyItems, groupName, inlineParts, List.intercalate]
  refine ⟨fun depth => ?_, fun depth level rest closes => ?_⟩
  · rw [← List.append_nil (Tree.prettyChars depth _), written]
    exact ⟨'(', _, rfl, by decide, by decide⟩
  · rw [written]
    refine inParentheses_taken ?_ .expectedGroup level
    refine (storedFirst.item_next expected 0 depth (level - 2)
      ((storedSecond.opens depth).append _)).bind ?_
    exact (storedSecond.item_last expected 1 depth (level - 2) rest).bind (.pure _ _)

theorem triple (expected : String) (storedFirst : Stores first t₁ a)
    (storedSecond : Stores second t₂ b) (storedThird : Stores third t₃ d) :
    Stores (.triple expected first second third) (.tuple none [t₁, t₂, t₃]) (a, b, d) := by
  have written (depth : Nat) (rest : List Char) :
      (Tree.tuple none [t₁, t₂, t₃]).prettyChars depth ++ rest = '(' :: (t₁.prettyChars depth ++
        ',' :: ' ' :: (t₂.prettyChars depth ++
          ',' :: ' ' :: (t₃.prettyChars depth ++ ')' :: rest))) := by
    simp [Tree.prettyChars, Tree.prettyItems, groupName, inlineParts, List.intercalate]
  refine ⟨fun depth => ?_, fun depth level rest closes => ?_⟩
  · rw [← List.append_nil (Tree.prettyChars depth _), written]
    exact ⟨'(', _, rfl, by decide, by decide⟩
  · rw [written]
    refine inParentheses_taken ?_ .expectedGroup level
    refine (storedFirst.item_next expected 0 depth (level - 2)
      ((storedSecond.opens depth).append _)).bind ?_
    refine (storedSecond.item_next expected 1 depth (level - 2)
      ((storedThird.opens depth).append _)).bind ?_
    exact (storedThird.item_last expected 2 depth (level - 2) rest).bind (.pure _ _)

end Tuples

end Parentheses

end Stores

end NodeScript
