import NodeScript.Proofs.Document.Stores

/-!
Records and variants that readers understand, and documents that hold one value. The fields of a
record are written in the order in which its reader knows them, so that each of them is put into
what the fields before it have made.
-/

namespace NodeScript

/-! ### Records -/

/-- The written fields of a record, in the order in which the reader knows them, take the record
from one state to another. -/
inductive Fill {ρ : Type} : List (Reader.Field ρ) → List (String × Tree) → ρ → ρ → Prop
  | done {record} : Fill [] [] record record
  | field {f known t trees put record record'} : Stores f.put t put →
      Fill known trees (put record) record' →
      Fill (f :: known) ((f.name, t) :: trees) record record'

namespace Fill

open Scan

variable {ρ α : Type} {known : List (Reader.Field ρ)} {trees : List (String × Tree)}
  {record record' : ρ} {name : String} {value : Reader α} {t : Tree} {a : α} {put : α → ρ → ρ}

theorem required (stored : Stores value t a) (later : Fill known trees (put a record) record') :
    Fill (.required name value put :: known) ((name, t) :: trees) record record' :=
  have first : Stores (Reader.Field.required name value put).put t (put a) := stored.map put
  .field first later

theorem optional (stored : Stores value t a) (later : Fill known trees (put a record) record') :
    Fill (.optional name value put :: known) ((name, t) :: trees) record record' :=
  have first : Stores (Reader.Field.optional name value put).put t (put a) := stored.map put
  .field first later

/-- A field that has not been read yet is read and put in. -/
theorem field_taken {f : Reader.Field ρ} {seen : List String} {put : ρ → ρ}
    (plain : PlainName f.name) (found : known.find? (·.name = f.name) = some f)
    (fresh : f.name ∉ seen) (stored : Stores f.put t put) (depth level : Nat) {rest : List Char}
    (closes : Closes rest) :
    Takes (Reader.field known seen record (plainPlace level))
      (f.name.toList ++ ':' :: ' ' :: t.prettyChars depth ++ rest)
      (f.name :: seen, put record) rest := by
  have written : f.name.toList ++ ':' :: ' ' :: t.prettyChars depth ++ rest =
      f.name.toList ++ ':' :: ' ' :: (t.prettyChars depth ++ rest) := by simp
  rw [written]
  unfold Reader.field
  refine (name_plain plain (nameEnds_cons (by decide))).bind ?_
  rw [found]
  dsimp only
  rw [if_neg (by simpa using fresh)]
  refine (colon_blank ((stored.opens depth).append rest)).bind ?_
  exact (stored.reads depth level rest closes).bind (.pure _ _)

/-- Fields are read one by one; those of the names `seen` have been read before. -/
theorem passes {left : List (Reader.Field ρ)} {seen : List String}
    (fill : Fill left trees record record') (distinct : (known.map (·.name)).Nodup)
    (plain : ∀ f ∈ known, PlainName f.name) {before : List (Reader.Field ρ)}
    (split : known = before ++ left) (seenBefore : seen = (before.map (·.name)).reverse)
    (depth level : Nat) :
    Passes (fun s => Reader.field known s.1 s.2 (plainPlace level)) (seen, record)
      (Tree.prettyFields depth trees) ((known.map (·.name)).reverse, record') := by
  -- the fields `before` have been read, and no later one has the name of one of them
  induction fill generalizing before seen with
  | done =>
    rw [List.append_nil] at split
    rw [Tree.prettyFields, seenBefore, split]
    exact .done
  | @field f left t trees put record record' stored later ih =>
    subst split
    have apart := distinct
    rw [List.map_append, List.map_cons, List.nodup_append] at apart
    have others : ∀ g ∈ before, g.name ≠ f.name := fun g member =>
      apart.2.2 g.name (List.mem_map_of_mem member) f.name (.head _)
    have found : (before ++ f :: left).find? (·.name = f.name) = some f := by
      have none : before.find? (·.name = f.name) = none :=
        List.find?_eq_none.mpr fun g member => by simpa using others g member
      rw [List.find?_append, none, Option.none_or, List.find?_cons_of_pos (by simp)]
    have fresh : f.name ∉ seen := by
      rw [seenBefore, List.mem_reverse, List.mem_map]
      rintro ⟨g, member, same⟩
      exact others g member same
    have named := plain f (by simp)
    have split : before ++ f :: left = (before ++ [f]) ++ left := by simp
    have seenNow : f.name :: seen = ((before ++ [f]).map (·.name)).reverse := by simp [seenBefore]
    rw [Tree.prettyFields]
    exact .next (named.opens _)
      (fun rest closes => field_taken named found fresh stored depth level closes)
      (ih split seenNow)

/-- Fields that have all been written make up what the reader of a record finds. -/
theorem fields_taken {standard value : ρ} (fill : Fill known trees standard value)
    (distinct : (known.map (·.name)).Nodup) (plain : ∀ f ∈ known, PlainName f.name)
    (depth level : Nat) (rest : List Char) :
    Takes (Reader.fields known standard (plainPlace level))
      (insideLines ')' depth (Tree.prettyFields (depth + 1) trees) rest) value (')' :: rest) := by
  have start : known = [] ++ known := rfl
  have passes := fill.passes distinct plain start rfl (depth + 1) (level - 2)
  have complete : known.find? (fun f => f.needed &&
      !(known.map (·.name)).reverse.contains f.name) = none := by
    rw [List.find?_eq_none]
    intro f member
    simp [List.mem_map_of_mem member]
  unfold Reader.fields
  refine (passes.parts (by decide) depth rest).bind ?_
  dsimp only
  rw [complete]
  exact .pure _ _

end Fill

namespace Stores

open Scan

variable {α β ρ : Type} {name owner : String} {trees : List (String × Tree)} {read : Reader α}
  {t : Tree} {a : α} {rest : List Char} {depth level : Nat}

theorem prettyChars_record (name : String) (trees : List (String × Tree)) (depth : Nat)
    (rest : List Char) :
    (encodeRecord name trees).prettyChars depth ++ rest =
      name.toList ++ '(' :: insideLines ')' depth (Tree.prettyFields (depth + 1) trees) rest := by
  rw [encodeRecord, Tree.prettyChars, List.append_assoc, bracketedLines_append]
  rfl

theorem opens_record (plain : PlainName name) (trees : List (String × Tree)) (depth : Nat) :
    Opens ((encodeRecord name trees).prettyChars depth) := by
  rw [← List.append_nil (Tree.prettyChars depth _), prettyChars_record]
  exact plain.opens _

/-- A record whose fields have all been written. -/
theorem record {standard value : ρ} {known : List (Reader.Field ρ)} (plain : PlainName name)
    (fill : Fill known trees standard value) (distinct : (known.map (·.name)).Nodup)
    (names : ∀ f ∈ known, PlainName f.name) :
    Stores (.record name standard known) (encodeRecord name trees) value := by
  refine ⟨opens_record plain trees, fun depth level rest closes => ?_⟩
  have inside := fill.fields_taken distinct names depth level rest
  rw [prettyChars_record]
  unfold Reader.record
  rw [if_pos (by rfl)]
  refine (recordName_found plain (nameEnds_cons (by decide))).bind ?_
  refine (layout_atPart (atPart_paren _)).bind ?_
  exact inParentheses_taken (inside.inOwner name) (.expectedGroupOf name) level

/-! ### Variants -/

section Variants

variable {cases : List (String × Reader.Content α)}

/-- The name of a variant is found, and what stands behind it is read. -/
theorem variant_taken {inside : Reader.Content α} (plain : PlainName name)
    (found : cases.lookup name = some inside) {text : List Char} (ends : NameEnds text)
    (taken : Takes (Reader.content name inside (plainPlace (level - 1))) text a rest) :
    Takes (Reader.variant owner cases (plainPlace level)) (name.toList ++ text) a rest := by
  unfold Reader.variant
  refine (layout_atPart (plain.opens text).atPart).bind ((name_plain plain ends).bind ?_)
  rw [found]
  exact taken

/-- A variant that is a value by itself. -/
theorem variant (plain : PlainName name) (found : cases.lookup name = some (.nothing a)) :
    Stores (.variant owner cases) (.word name) a := by
  refine ⟨fun depth => ?_, fun depth level rest closes => ?_⟩
  · rw [Tree.prettyChars, ← List.append_nil name.toList]
    exact plain.opens []
  · rw [Tree.prettyChars]
    exact variant_taken plain found closes.nameEnds (.pure _ _)

/-- A variant that holds a value. -/
theorem variantOf (plain : PlainName name) (found : cases.lookup name = some (.value read))
    (stored : Stores read t a) : Stores (.variant owner cases) (encodeVariant name t) a := by
  refine ⟨opens_named plain t, fun depth level rest closes => ?_⟩
  rw [encodeVariant, prettyChars_named]
  refine variant_taken plain found (nameEnds_cons (by decide)) ?_
  unfold Reader.content
  refine (layout_atPart (atPart_paren _)).bind ((expect_found '(' _ _).bind ?_)
  exact (stored.inOwner name).closed id depth (level - 1 - 1) rest

/-- A variant that holds fields. -/
theorem variantFields {standard value : ρ} {known : List (Reader.Field ρ)} {change : ρ → α}
    (plain : PlainName name)
    (found : cases.lookup name = some (.fields (.map change (.fields known standard))))
    (fill : Fill known trees standard value) (distinct : (known.map (·.name)).Nodup)
    (names : ∀ f ∈ known, PlainName f.name) (made : change value = a) :
    Stores (.variant owner cases) (encodeRecord name trees) a := by
  subst made
  refine ⟨opens_record plain trees, fun depth level rest closes => ?_⟩
  have inside := (fill.fields_taken distinct names depth (level - 1) rest).map change
  rw [prettyChars_record]
  refine variant_taken plain found (nameEnds_cons (by decide)) ?_
  unfold Reader.content
  refine (layout_atPart (atPart_paren _)).bind ?_
  exact (inParentheses_taken inside .expectedGroup _).inOwner name

end Variants

/-! ### Documents -/

/-- A written tree is a document of what it stores. -/
theorem document (stored : Stores read t a) : readDocument read t.pretty = .ok a := by
  have opens := stored.opens 0
  have options : Takes Scan.options (t.prettyChars 0) .standard (t.prettyChars 0) := by
    have first : Takes (Scan.attributes (' ' :: t.prettyChars 0) .standard) (t.prettyChars 0)
        .standard (t.prettyChars 0) :=
      (layout_atPart opens.atPart).bind ((startsWith_other (opens.head_ne (by simp))).bind
        (.pure _ _))
    exact first
  have value : Takes (read ⟨.standard, nestingLimit, false⟩) (t.prettyChars 0) a [] := by
    have reads := stored.reads 0 nestingLimit [] closes_nil
    rwa [List.append_nil] at reads
  have document : Takes (do
      let options ← Scan.options
      let v ← read ⟨options, nestingLimit, false⟩
      Scan.layout
      if !(← get).isEmpty then Scan.stop .trailingText
      return v) (t.prettyChars 0) a [] := by
    refine options.bind (value.bind ((layout_atPart closes_nil.atPart).bind ?_))
    exact (Takes.get []).bind (.pure _ _)
  unfold Takes at document
  unfold readDocument Tree.pretty
  dsimp only
  rw [String.toList_ofList, document]

end Stores

end NodeScript
