import NodeScript.Proofs.Text.Boundary
import NodeScript.Typing.TypeText

/-!
The text of types and its reader. The text of a type is read as the type with its variables as bare
names, whatever ends the type behind it; and what was read from any text is read again from its own.
-/

namespace NodeScript

/-- A name that is read as a whole: it is not empty and has no other characters than names have. -/
def IsTypeName (name : String) : Prop :=
  name.toList ≠ [] ∧ ∀ c ∈ name.toList, isTypeNameChar c = true

instance : DecidablePred IsTypeName := fun name =>
  decidable_of_iff (name.toList ≠ [] ∧ name.toList.all isTypeNameChar = true)
    (and_congr_right fun _ => List.all_eq_true)

/-- A type all of whose names can be read. -/
inductive TypeExpr.WellNamed : TypeExpr → Prop
  | var {name} : IsTypeName name → WellNamed (.var name)
  | named {name args} : IsTypeName name → (∀ a ∈ args, WellNamed a) → WellNamed (.named name args)

mutual

/-- The type with its variables turned into bare names. -/
def TypeExpr.bare : TypeExpr → TypeExpr
  | .var name => .plain name
  | .named name args => .named name (TypeExpr.bareAll args)

/-- Types with their variables turned into bare names. -/
def TypeExpr.bareAll : List TypeExpr → List TypeExpr
  | [] => []
  | t :: rest => t.bare :: TypeExpr.bareAll rest

end

theorem TypeExpr.bareAll_eq_map (ts : List TypeExpr) :
    TypeExpr.bareAll ts = ts.map TypeExpr.bare := by
  induction ts with
  | nil => rfl
  | cons t rest ih => rw [TypeExpr.bareAll, ih, List.map_cons]

mutual

/-- The names that stand in a type without arguments. -/
def TypeExpr.plainNames : TypeExpr → List String
  | .var _ => []
  | .named name args => if args.isEmpty then [name] else TypeExpr.plainNamesAll args

/-- The names that stand in types without arguments. -/
def TypeExpr.plainNamesAll : List TypeExpr → List String
  | [] => []
  | t :: rest => t.plainNames ++ TypeExpr.plainNamesAll rest

end

theorem TypeExpr.mem_plainNames_of_mem {name head : String} {args : List TypeExpr} {a : TypeExpr}
    (member : a ∈ args) (plain : name ∈ a.plainNames) :
    name ∈ (TypeExpr.named head args).plainNames := by
  have all : ∀ ts, a ∈ ts → name ∈ TypeExpr.plainNamesAll ts := by
    intro ts inside
    induction ts with
    | nil => exact nomatch inside
    | cons t rest ih =>
      rcases List.mem_cons.mp inside with rfl | later
      · exact List.mem_append_left _ plain
      · exact List.mem_append_right _ (ih later)
  cases args with
  | nil => exact nomatch member
  | cons first more => exact all _ member

/-! ### Characters -/

/-- No character of names is white space. -/
theorem isBlank_eq_false_of_name {c : Char} (name : isTypeNameChar c = true) :
    isBlank c = false := by
  have apart : ∀ r ∈ blankRanges, ∀ n ∈ List.range' r.1 (r.2 + 1 - r.1),
      alphanumericRanges.holds n = false ∧ n ≠ '_'.toNat ∧ n ≠ '.'.toNat := by decide +kernel
  cases blank : isBlank c with
  | false => rfl
  | true =>
    obtain ⟨r, member, lower, upper⟩ := CodeRanges.exists_of_holds blank
    have inside : c.toNat ∈ List.range' r.1 (r.2 + 1 - r.1) := by
      rw [List.mem_range'_1]
      omega
    obtain ⟨letter, underscore, point⟩ := apart r member _ inside
    simp only [isTypeNameChar, isAlphanumeric, CodeRanges.holdsChar, letter, Bool.false_or,
      Bool.or_eq_true, beq_iff_eq] at name
    rcases name with rfl | rfl
    · exact absurd rfl underscore
    · exact absurd rfl point

theorem GoesOn.skipBlank {marks text : List Char} (goes : GoesOn marks text)
    (solid : marks.any isBlank = false) : skipBlank text = text := by
  cases text with
  | nil => rfl
  | cons c rest =>
    exact skipBlank_cons_of_not_blank (goes.stops solid c rfl)

theorem IsTypeName.skipBlank_append {name : String} (named : IsTypeName name) (rest : List Char) :
    skipBlank (name.toList ++ rest) = name.toList ++ rest := by
  obtain ⟨filled, all⟩ := named
  obtain ⟨c, more, split⟩ := List.exists_cons_of_ne_nil filled
  rw [split] at all ⊢
  exact skipBlank_cons_of_not_blank (isBlank_eq_false_of_name (all c (.head _)))

/-- A name is read as a whole. -/
theorem IsTypeName.split {name : String} (named : IsTypeName name) {marks tail : List Char}
    (goes : GoesOn marks tail) (other : marks.any isTypeNameChar = false) :
    NodeScript.skipBlank (name.toList ++ tail) = name.toList ++ tail ∧
      (name.toList ++ tail).takeWhile isTypeNameChar = name.toList ∧
      (name.toList ++ tail).dropWhile isTypeNameChar = tail :=
  ⟨named.skipBlank_append tail, span_append named.2 (goes.stops other)⟩

/-- What was read, without the bound on the rest. -/
def readOf {α : Type} {P : α → Prop} (r : Except (List Char) { a // P a }) :
    Except (List Char) α :=
  r.map Subtype.val

theorem readOf_eq_ok_iff {α : Type} {P : α → Prop} {r : Except (List Char) { a // P a }} {a : α} :
    readOf r = .ok a ↔ ∃ bound, r = .ok ⟨a, bound⟩ := by
  cases r with
  | error stuck => exact ⟨nofun, nofun⟩
  | ok found =>
    obtain ⟨b, bound⟩ := found
    constructor
    · intro same
      obtain rfl : b = a := Except.ok.inj same
      exact ⟨bound, rfl⟩
    · rintro ⟨_, same⟩
      exact congrArg readOf same

/-! ### The readers -/

theorem readOf_readBrackets (element : TypeExpr) (text : List Char) :
    readOf (readBrackets element text) =
      match skipBlank text with
      | '[' :: more =>
        match skipBlank more with
        | ']' :: rest => readOf (readBrackets (.array element) rest)
        | stuck => .error stuck
      | rest => .ok (element, rest) := by
  rw [readBrackets]
  split
  · rename_i more h
    simp only [h]
    split
    · rename_i rest g
      simp only [g]
      split <;> rename_i found <;> rw [found] <;> rfl
    · rename_i g
      split
      · rename_i rest g'
        exact absurd g' (g rest)
      · rfl
  · rename_i h
    split
    · rename_i rest h'
      exact absurd h' (h rest)
    · rfl

theorem readOf_readType (text : List Char) :
    readOf (readType text) =
      let name := (skipBlank text).takeWhile isTypeNameChar
      let afterName := (skipBlank text).dropWhile isTypeNameChar
      if name = [] then .error afterName
      else
        match skipBlank afterName with
        | '<' :: inside =>
          (readOf (readArgs inside)).bind fun (args, rest) =>
            readOf (readBrackets (.named (String.ofList name) args) rest)
        | rest => readOf (readBrackets (.named (String.ofList name) []) rest) := by
  rw [readType]
  dsimp only
  split
  · rfl
  split
  · rename_i inside h
    simp only [h]
    split
    · rename_i found
      rw [found]
      rfl
    · rename_i args rest _ found
      rw [found]
      change readOf _ = readOf (readBrackets _ rest)
      split <;> rename_i found' <;> rw [found'] <;> rfl
  · rename_i h
    split
    · rename_i found
      split
      · rename_i inside h'
        exact absurd h' (h inside)
      · rw [found]
        rfl
    · rename_i found
      split
      · rename_i inside h'
        exact absurd h' (h inside)
      · rw [found]
        rfl

theorem readOf_readArgs (text : List Char) :
    readOf (readArgs text) =
      (readOf (readType text)).bind fun (arg, afterArg) =>
        match skipBlank afterArg with
        | ',' :: more => (readOf (readArgs more)).map fun (args, rest) => (arg :: args, rest)
        | '>' :: rest => .ok ([arg], rest)
        | stuck => .error stuck := by
  rw [readArgs]
  split
  · rename_i found
    rw [found]
    rfl
  · rename_i arg afterArg _ found
    rw [found]
    change readOf _ = match skipBlank afterArg with
      | ',' :: more => (readOf (readArgs more)).map fun (args, rest) => (arg :: args, rest)
      | '>' :: rest => .ok ([arg], rest)
      | stuck => .error stuck
    split
    · rename_i more h
      simp only [h]
      split <;> rename_i found' <;> rw [found'] <;> rfl
    · rename_i rest h
      simp only [h]
      rfl
    · rename_i comma angle
      split
      · rename_i more h
        exact absurd h (comma more)
      · rename_i rest h
        exact absurd h (angle rest)
      · rfl


/-! ### Reading what was written -/

theorem readBrackets_pair (element : TypeExpr) (tail : List Char) :
    readOf (readBrackets element ('[' :: ']' :: tail)) =
      readOf (readBrackets (.array element) tail) := by
  have closing : skipBlank (']' :: tail) = ']' :: tail := rfl
  rw [readOf_readBrackets, skipBlank_cons_of_not_blank (by decide)]
  simp only [closing]

theorem readBrackets_end (element : TypeExpr) {tail : List Char} (ends : GoesOn [',', '>'] tail) :
    readOf (readBrackets element tail) = .ok (element, tail) := by
  rw [readOf_readBrackets, ends.skipBlank (by decide)]
  split
  · have absurdity := ends '[' rfl
    simp at absurdity
  · rfl

theorem readType_name {name : String} (named : IsTypeName name) {tail : List Char}
    (goes : GoesOn [',', '>', '['] tail) :
    readOf (readType (name.toList ++ tail)) = readOf (readBrackets (.plain name) tail) := by
  obtain ⟨solid, taken, left⟩ := named.split goes (by decide)
  rw [readOf_readType, solid]
  dsimp only
  rw [taken, left, if_neg named.1, goes.skipBlank (by decide), String.ofList_toList]
  split
  · have absurdity := goes '<' rfl
    simp at absurdity
  · rfl

theorem readType_applied {name : String} (named : IsTypeName name) (inside : List Char) :
    readOf (readType (name.toList ++ '<' :: inside)) =
      (readOf (readArgs inside)).bind fun (args, rest) =>
        readOf (readBrackets (.named name args) rest) := by
  have goes : GoesOn ['<'] ('<' :: inside) := by simp [GoesOn]
  obtain ⟨solid, taken, left⟩ := named.split goes (by decide)
  rw [readOf_readType, solid]
  dsimp only
  rw [taken, left, if_neg named.1, goes.skipBlank (by decide), String.ofList_toList]
  rfl

theorem readArgs_blank (text : List Char) :
    readOf (readArgs (' ' :: text)) = readOf (readArgs text) := by
  have skipped : skipBlank (' ' :: text) = skipBlank text := rfl
  rw [readOf_readArgs, readOf_readArgs, readOf_readType, readOf_readType, skipped]

/-- The text of an argument list is read as the arguments, if that of each argument is. -/
theorem readArgs_textChars {arg : TypeExpr} {more : List TypeExpr}
    (reads : ∀ a ∈ arg :: more, ∀ {tail}, GoesOn [',', '>', '['] tail →
      readOf (readType (a.textChars ++ tail)) = readOf (readBrackets a.bare tail))
    (tail : List Char) :
    readOf (readArgs (arg.textChars ++ TypeExpr.moreTextChars more ++ '>' :: tail)) =
      .ok (TypeExpr.bareAll (arg :: more), tail) := by
  induction more generalizing arg with
  | nil =>
    have ends : GoesOn [',', '>'] ('>' :: tail) := by simp [GoesOn]
    rw [TypeExpr.moreTextChars, List.append_nil, readOf_readArgs,
      reads arg (.head _) (ends.mono (by simp)), readBrackets_end _ ends]
    rfl
  | cons b rest ih =>
    have ends : GoesOn [',', '>'] (',' :: ' ' :: (b.textChars ++ TypeExpr.moreTextChars rest ++
      '>' :: tail)) := by simp [GoesOn]
    have later := ih fun a member => reads a (.tail _ member)
    rw [TypeExpr.moreTextChars, List.cons_append, List.cons_append, List.append_assoc,
      List.cons_append, List.cons_append, readOf_readArgs, reads arg (.head _) (ends.mono (by simp)),
      readBrackets_end _ ends]
    change (readOf (readArgs (' ' :: _))).map _ = _
    rw [readArgs_blank, later]
    rfl

/-- The text of a type is read as the type with bare names, and array brackets may follow. -/
theorem TypeExpr.WellNamed.readType_textChars {t : TypeExpr} (named : t.WellNamed) {tail : List Char}
    (goes : GoesOn [',', '>', '['] tail) :
    readOf (readType (t.textChars ++ tail)) = readOf (readBrackets t.bare tail) := by
  induction named generalizing tail with
  | var named => exact readType_name named goes
  | @named name args named _ ih =>
    match args with
    | [] => exact readType_name named goes
    | arg :: more =>
      have applied : readOf (readType (name.toList ++
          '<' :: arg.textChars ++ TypeExpr.moreTextChars more ++ ['>'] ++ tail)) =
          readOf (readBrackets (.named name (TypeExpr.bareAll (arg :: more))) tail) := by
        have inside := readArgs_textChars (fun a member _ goes => ih a member goes) tail
        rw [List.append_assoc, List.append_assoc, List.append_assoc, List.cons_append,
          readType_applied named, ← List.append_assoc]
        rw [show ['>'] ++ tail = '>' :: tail from rfl, inside]
        rfl
      match more with
      | [] =>
        rw [TypeExpr.textChars]
        by_cases array : name = arrayName
        · have bracket : GoesOn [',', '>', '['] ('[' :: ']' :: tail) := by simp [GoesOn]
          rw [if_pos array, List.append_assoc]
          change readOf (readType (arg.textChars ++ '[' :: ']' :: tail)) = _
          rw [ih arg (.head _) bracket, readBrackets_pair, array]
          rfl
        · rw [if_neg array]
          rwa [TypeExpr.moreTextChars, List.append_nil] at applied
      | b :: rest => exact applied

/-! ### What was read -/

/-- A type as the reader makes it: its names can be read, and it has no variables. -/
def TypeExpr.Readable (t : TypeExpr) : Prop := t.WellNamed ∧ t.bare = t

theorem TypeExpr.Readable.named {name : String} {args : List TypeExpr} (named : IsTypeName name)
    (readable : ∀ a ∈ args, a.Readable) : (TypeExpr.named name args).Readable := by
  refine ⟨.named named fun a member => (readable a member).1, ?_⟩
  have same : args.map bare = args.map id := List.map_congr_left fun a member => (readable a member).2
  rw [bare, bareAll_eq_map, same, List.map_id]

theorem readBrackets_shorter {text more rest : List Char} {opening closing : Char}
    (opened : skipBlank text = opening :: more) (closed : skipBlank more = closing :: rest) :
    rest.length < text.length := by
  have first := length_skipBlank_le text
  have second := length_skipBlank_le more
  rw [opened, List.length_cons] at first
  rw [closed, List.length_cons] at second
  omega

theorem readBrackets_readable {element t : TypeExpr} {text rest : List Char}
    (readable : element.Readable) (read : readOf (readBrackets element text) = .ok (t, rest)) :
    t.Readable := by
  rw [readOf_readBrackets] at read
  split at read
  · rename_i more opened
    split at read
    · rename_i behind closed
      have shorter := readBrackets_shorter opened closed
      have array : (TypeExpr.array element).Readable := by
        refine .named (by decide) fun a member => ?_
        rwa [List.mem_singleton.mp member]
      exact readBrackets_readable array read
    · exact nomatch read
  · obtain rfl : element = t := congrArg Prod.fst (Except.ok.inj read)
    exact readable
termination_by text.length

theorem bind_eq_ok {α β : Type} {r : Except (List Char) α} {f : α → Except (List Char) β} {b : β}
    (result : r.bind f = .ok b) : ∃ a, r = .ok a ∧ f a = .ok b := by
  cases r with
  | error stuck => exact nomatch result
  | ok a => exact ⟨a, rfl, result⟩

mutual

theorem readType_readable {text rest : List Char} {t : TypeExpr}
    (read : readOf (readType text) = .ok (t, rest)) : t.Readable := by
  rw [readOf_readType] at read
  have start := length_skipBlank_le text
  have split : ((skipBlank text).takeWhile isTypeNameChar ++
      (skipBlank text).dropWhile isTypeNameChar).length = (skipBlank text).length :=
    congrArg List.length List.takeWhile_append_dropWhile
  have all : ∀ c ∈ (skipBlank text).takeWhile isTypeNameChar, isTypeNameChar c = true :=
    List.all_eq_true.mp List.all_takeWhile
  generalize (skipBlank text).takeWhile isTypeNameChar = name at read split all
  generalize (skipBlank text).dropWhile isTypeNameChar = afterName at read split
  rw [List.length_append] at split
  dsimp only at read
  split at read
  · exact nomatch read
  rename_i filled
  have positive := List.length_pos_iff.mpr filled
  have named : IsTypeName (String.ofList name) := by
    rw [IsTypeName, String.toList_ofList]
    exact ⟨filled, all⟩
  split at read
  · rename_i inside opened
    have shorter : inside.length < text.length := by
      have inner := length_skipBlank_le afterName
      rw [opened, List.length_cons] at inner
      omega
    obtain ⟨⟨args, behind⟩, found, brackets⟩ := bind_eq_ok read
    exact readBrackets_readable (.named named (readArgs_readable found)) brackets
  · exact readBrackets_readable (.named named (by simp)) read
termination_by 2 * text.length

theorem readArgs_readable {text rest : List Char} {args : List TypeExpr}
    (read : readOf (readArgs text) = .ok (args, rest)) : ∀ a ∈ args, a.Readable := by
  rw [readOf_readArgs] at read
  obtain ⟨⟨arg, afterArg⟩, found, behind⟩ := bind_eq_ok read
  have first := readType_readable found
  obtain ⟨shorter, -⟩ := readOf_eq_ok_iff.mp found
  dsimp only at behind shorter
  split at behind
  · rename_i more comma
    have shorter : more.length < text.length := by
      have inner := length_skipBlank_le afterArg
      rw [comma, List.length_cons] at inner
      omega
    cases others : readOf (readArgs more) with
    | error stuck =>
      rw [others] at behind
      exact nomatch behind
    | ok pair =>
      rw [others] at behind
      obtain ⟨more', rest'⟩ := pair
      obtain rfl : arg :: more' = args := congrArg Prod.fst (Except.ok.inj behind)
      exact List.forall_mem_cons.mpr ⟨first, readArgs_readable others⟩
  · obtain rfl : [arg] = args := congrArg Prod.fst (Except.ok.inj behind)
    exact List.forall_mem_singleton.mpr first
  · exact nomatch behind
termination_by 2 * text.length + 1

end

/-! ### Whole texts -/

namespace TypeExpr

theorem parse_eq (input : String) :
    parse input =
      match readOf (readType input.toList) with
      | .error rest => .error (.stuckAt input rest)
      | .ok (t, rest) =>
        match skipBlank rest with
        | [] => .ok t
        | stuck => .error (.stuckAt input stuck) := by
  rw [parse]
  cases readType input.toList <;> rfl

theorem parse_of_wellNamed {t : TypeExpr} (named : t.WellNamed) : parse t.text = .ok t.bare := by
  have ends : GoesOn [',', '>', '['] [] := by simp [GoesOn]
  have read := named.readType_textChars ends
  rw [List.append_nil, readBrackets_end _ (by simp [GoesOn])] at read
  rw [parse_eq, text, String.toList_ofList, read]
  rfl

theorem readable_of_parse {input : String} {t : TypeExpr} (parsed : parse input = .ok t) :
    t.Readable := by
  rw [parse_eq] at parsed
  split at parsed
  · exact nomatch parsed
  · rename_i found
    split at parsed
    · obtain rfl := Except.ok.inj parsed
      exact readType_readable found
    · exact nomatch parsed

end TypeExpr

/-! ### Variables bound again -/

mutual

theorem TypeExpr.mem_collectVars {found : List String} {v : String} :
    (t : TypeExpr) → (v ∈ t.collectVars found ↔ v ∈ found ∨ v ∈ t.vars)
  | .var name => by
    simp only [TypeExpr.vars, TypeExpr.collectVars, addName, List.contains_eq_mem, List.not_mem_nil,
      decide_false, Bool.false_eq_true, if_false, List.nil_append, List.mem_singleton]
    split
    · rename_i member
      exact ⟨.inl, fun either => either.elim id fun same => same ▸ of_decide_eq_true member⟩
    · rw [List.mem_append, List.mem_singleton]
  | .named _ args => by
    have nothing : v ∈ TypeExpr.collectVarsAll [] args ↔ v ∈ [] ∨ ∃ t ∈ args, v ∈ t.vars :=
      TypeExpr.mem_collectVarsAll args
    rw [TypeExpr.vars, TypeExpr.collectVars, TypeExpr.collectVars, TypeExpr.mem_collectVarsAll args,
      nothing]
    simp

theorem TypeExpr.mem_collectVarsAll {found : List String} {v : String} :
    (ts : List TypeExpr) →
      (v ∈ TypeExpr.collectVarsAll found ts ↔ v ∈ found ∨ ∃ t ∈ ts, v ∈ t.vars)
  | [] => by simp [TypeExpr.collectVarsAll]
  | t :: rest => by
    rw [TypeExpr.collectVarsAll, TypeExpr.mem_collectVarsAll rest, TypeExpr.mem_collectVars t]
    simp [or_assoc]

end

namespace TypeExpr

/-- Binding the variables and nothing else in the type with bare names gives the type back. -/
theorem WellNamed.bindParams_bare {t : TypeExpr} (named : t.WellNamed) {params : List String}
    (within : ∀ v ∈ t.vars, v ∈ params) (plain : ∀ name ∈ t.plainNames, name ∉ params) :
    t.bare.bindParams params = t := by
  induction named with
  | @var name _ =>
    have bound : name ∈ params := within name (by simp [vars, collectVars, addName])
    simp [bare, TypeExpr.plain, bindParams, bound]
  | @named name args _ _ ih =>
    have each : args.map (fun a => a.bare.bindParams params) = args.map id := by
      refine List.map_congr_left fun a member => ih a member ?_ ?_
      · intro v occurs
        refine within v ?_
        rw [vars, collectVars, mem_collectVarsAll]
        exact .inr ⟨a, member, occurs⟩
      · exact fun name holds => plain name (mem_plainNames_of_mem member holds)
    have free : (args.isEmpty && params.contains name) = false := by
      cases args with
      | nil => simpa using plain name (.head _)
      | cons => rfl
    have empty : (bareAll args).isEmpty = args.isEmpty := by cases args <;> rfl
    rw [bare, bindParams, empty, free, bindParamsAll_eq_map, bareAll_eq_map, List.map_map]
    exact congrArg (TypeExpr.named name) (each.trans (List.map_id _))

/-- A type whose names can be read is read from its text with its variables as bare names, and it is
read as it is where its variables and none of its bare names are to be bound. Whatever text is a
type, that type is read again from its own text. -/
theorem parse_round_trip :
    (∀ t : TypeExpr, t.WellNamed → parse t.text = .ok t.bare ∧
      ∀ params : List String, (∀ v ∈ t.vars, v ∈ params) →
        (∀ name ∈ t.plainNames, name ∉ params) → parseWithParams t.text params = .ok t) ∧
    ∀ input t, parse input = .ok t → parse t.text = .ok t := by
  refine ⟨fun t named => ⟨parse_of_wellNamed named, fun params within plain => ?_⟩, ?_⟩
  · rw [parseWithParams, parse_of_wellNamed named]
    exact congrArg Except.ok (named.bindParams_bare within plain)
  · intro input t parsed
    obtain ⟨named, bare⟩ := readable_of_parse parsed
    rw [parse_of_wellNamed named, bare]

/-- Arrays of tables whose values are arrays of lists of a variable. -/
def tables : TypeExpr := array (named "Map" [plain "Game.Key", array (named "List" [var "T"])])

theorem parse_round_trip_tables :
    tables.WellNamed ∧ (∀ v ∈ tables.vars, v ∈ ["T"]) ∧
      (∀ name ∈ tables.plainNames, name ∉ ["T"]) ∧
      tables.text = "Map<Game.Key, List<T>[]>[]" ∧
      parse tables.text = .ok tables.bare ∧ parseWithParams tables.text ["T"] = .ok tables ∧
      parse tables.bare.text = .ok tables.bare := by
  have wellNamed : tables.WellNamed := by
    refine .named (by decide) (List.forall_mem_singleton.mpr (.named (by decide) ?_))
    refine List.forall_mem_cons.mpr ⟨.named (by decide) nofun, List.forall_mem_singleton.mpr ?_⟩
    refine .named (by decide) (List.forall_mem_singleton.mpr (.named (by decide) ?_))
    exact List.forall_mem_singleton.mpr (.var (by decide))
  have within : ∀ v ∈ tables.vars, v ∈ ["T"] := by decide
  have plain : ∀ name ∈ tables.plainNames, name ∉ ["T"] := by decide
  obtain ⟨written, again⟩ := parse_round_trip
  obtain ⟨read, bound⟩ := written tables wellNamed
  exact ⟨wellNamed, within, plain, by decide, read, bound ["T"] within plain, again _ _ read⟩

end TypeExpr

end NodeScript
