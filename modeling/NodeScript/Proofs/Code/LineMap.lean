import Mathlib
import NodeScript.Proofs.Code.Pieces
import NodeScript.Proofs.Graph.Join
import NodeScript.Translation.Compile
import NodeScript.Typing.TypeDatabase

/-!
Lines of generated code and the nodes that they come from. Every line belongs to the innermost
member, method or statement that prints it, and what a compiler says about the line is told of the
node of that one.
-/

namespace NodeScript

/-- Groups of lines stand behind those before them, each with an empty line between. -/
theorem standsAt_separatedLines (before after : List (List SourceLine)) (group : List SourceLine) :
    StandsAt group (before.map (·.length + 1)).sum (separatedLines (before ++ group :: after)) := by
  induction before with
  | nil =>
    cases after with
    | nil => exact ⟨[], [], by simp [separatedLines], rfl⟩
    | cons next rest => exact ⟨[], _, rfl, rfl⟩
  | cons first rest ih =>
    have behind : separatedLines (first :: rest ++ group :: after) =
        (first ++ [⟨"", none⟩]) ++ separatedLines (rest ++ group :: after) := by
      cases rest <;> simp [separatedLines]
    obtain ⟨pre, post, split, length⟩ := ih
    refine ⟨first ++ [⟨"", none⟩] ++ pre, post, ?_, ?_⟩
    · rw [behind, split]
      simp
    · simp only [List.length_append, List.length_singleton, length, List.map_cons, List.sum_cons]

/-- A line of separated groups is empty or one of a group. -/
theorem exists_group_of_lt {groups : List (List SourceLine)} {k : Nat}
    (within : k < (separatedLines groups).length) :
    (separatedLines groups)[k]? = some ⟨"", none⟩ ∨ ∃ before group after j,
      groups = before ++ group :: after ∧ k = (before.map (·.length + 1)).sum + j ∧
        j < group.length := by
  induction groups generalizing k with
  | nil => simp [separatedLines] at within
  | cons group rest ih =>
    cases rest with
    | nil => exact .inr ⟨[], group, [], k, rfl, by simp, by simpa [separatedLines] using within⟩
    | cons next rest =>
      simp only [separatedLines, List.length_append, List.length_cons] at within ⊢
      rcases Nat.lt_trichotomy k group.length with inside | rfl | behind
      · exact .inr ⟨[], group, next :: rest, k, rfl, by simp, inside⟩
      · simp
      · obtain ⟨i, rfl⟩ : ∃ i, k = group.length + 1 + i := ⟨k - (group.length + 1), by omega⟩
        have later : (group ++ ⟨"", none⟩ :: separatedLines (next :: rest))[group.length + 1 + i]? =
            (separatedLines (next :: rest))[i]? := by
          rw [List.getElem?_append_right (by omega), show group.length + 1 + i - group.length = i + 1
            by omega, List.getElem?_cons_succ]
        rcases ih (k := i) (by omega) with empty | ⟨before, found, after, j, split, place, inside⟩
        · exact .inl (later.trans empty)
        · refine .inr ⟨group :: before, found, after, j, by rw [split]; rfl, ?_, inside⟩
          simp only [List.map_cons, List.sum_cons]
          omega

namespace CodeUnit

variable {unit : CodeUnit} {depth start k : Nat} {c : Construct} {s : Stmt}

/-- The members and methods of a unit. -/
def constructs (unit : CodeUnit) : List Construct :=
  unit.classDecl.members.map .member ++ unit.classDecl.methods.map .method

/-- The texts that a unit prints as they are: names, types, expressions, lines of members, comments
and namespaces. -/
def verbatim (unit : CodeUnit) : List String :=
  unit.usings ++ unit.namespaceName.toList ++ unit.classDecl.name :: unit.classDecl.base.toList
    ++ unit.classDecl.fields.flatMap (fun f => f.type :: f.name :: (f.value.map Expr.text).toList)
    ++ unit.constructs.flatMap Construct.verbatim

/-- How deep the inside of the class stands. -/
def innerDepth (unit : CodeUnit) : Nat := if unit.namespaceName.isSome then 2 else 1

/-- The lines that no construct prints: the imports, the heads and braces of the namespace and of the
class, the fields, and the empty line. -/
def frameLines (unit : CodeUnit) : List SourceLine :=
  usingLines unit.usings
    ++ unit.namespaceName.toList.map (fun name => sourceLine 0 none ("namespace " ++ name))
    ++ unit.classDecl.fields.map (FieldDecl.line unit.innerDepth)
    ++ ⟨"", none⟩ :: (["\x7b", "\x7d"].map (sourceLine 0 none)
    ++ [unit.classDecl.head, "\x7b", "\x7d"].map (sourceLine (unit.innerDepth - 1) none))

/-- The number of lines up to the brace that opens the class. -/
def headHeight (unit : CodeUnit) : Nat :=
  (if unit.usings.isEmpty then 0 else unit.usings.length + 1)
    + (if unit.namespaceName.isSome then 2 else 0) + 2

/-- The number of lines of the fields, with the empty line behind them. -/
def fieldsHeight (unit : CodeUnit) : Nat :=
  if unit.classDecl.fields.isEmpty then 0 else unit.classDecl.fields.length + 1

/-- A construct prints its lines at a depth and behind so many lines of the unit: members and methods
stand behind the fields with an empty line between any two, and statements where they are held. -/
inductive Prints (unit : CodeUnit) : (depth start : Nat) → Construct → Prop
  | construct {before c after} : unit.constructs = before ++ c :: after →
      Prints unit unit.innerDepth
        (unit.headHeight + unit.fieldsHeight + (before.map (·.height + 1)).sum) c
  | held {depth start c levels offset s} : Prints unit depth start c → c.Holds levels offset s →
      Prints unit (depth + levels) (start + offset) (.statement s)

/-- A line, counted from zero, is one of those of a construct. -/
def PrintsLine (unit : CodeUnit) (k : Nat) (c : Construct) : Prop :=
  ∃ depth start, unit.Prints depth start c ∧ start ≤ k ∧ k < start + c.height

/-- A line is one of those of a construct, and of none that the construct holds. -/
def InnermostAt (unit : CodeUnit) (k : Nat) (c : Construct) : Prop :=
  ∃ depth start, unit.Prints depth start c ∧ start ≤ k ∧ k < start + c.height ∧
    ∀ levels offset s, c.Holds levels offset s →
      ¬ (start + offset ≤ k ∧ k < start + offset + (Construct.statement s).height)

theorem groups_eq (unit : CodeUnit) (depth : Nat) :
    unit.classDecl.groups depth =
      (if unit.classDecl.fields.isEmpty then []
        else [unit.classDecl.fields.map (FieldDecl.line depth)])
        ++ unit.constructs.map (Construct.lines depth) := by
  simp only [ClassDecl.groups, constructs, List.map_append, List.map_map, List.append_assoc]
  rfl

/-- Around the groups of the class stand lines that no construct prints. -/
theorem exists_frame (unit : CodeUnit) : ∃ front back,
    unit.source.lines = front ++ separatedLines (unit.classDecl.groups unit.innerDepth) ++ back ∧
      front.length = unit.headHeight ∧ front ++ back ⊆ unit.frameLines := by
  have usings : (usingLines unit.usings).length =
      if unit.usings.isEmpty then 0 else unit.usings.length + 1 := by
    unfold usingLines
    split <;> simp
  have inside : ∀ depth, unit.classDecl.lines depth =
      [sourceLine depth none unit.classDecl.head, sourceLine depth none "\x7b"]
        ++ separatedLines (unit.classDecl.groups (depth + 1)) ++ [sourceLine depth none "\x7d"] :=
    fun _ => rfl
  cases name : unit.namespaceName with
  | none =>
    refine ⟨usingLines unit.usings
      ++ [sourceLine 0 none unit.classDecl.head, sourceLine 0 none "\x7b"],
      [sourceLine 0 none "\x7d"], ?_, ?_, ?_⟩
    · simp [source, name, inside, innerDepth]
    · simp [headHeight, usings, name]
    · simp [frameLines, name, innerDepth]
  | some name' =>
    refine ⟨usingLines unit.usings ++ [sourceLine 0 none ("namespace " ++ name'),
      sourceLine 0 none "\x7b", sourceLine 1 none unit.classDecl.head, sourceLine 1 none "\x7b"],
      [sourceLine 1 none "\x7d", sourceLine 0 none "\x7d"], ?_, ?_, ?_⟩
    · simp [source, name, inside, innerDepth, bracedLines]
    · simp [headHeight, usings, name]
    · simp [frameLines, name, innerDepth]

/-- The lines of a construct stand where it prints them. -/
theorem Prints.stands (prints : unit.Prints depth start c) :
    StandsAt (c.lines depth) start unit.source.lines := by
  induction prints with
  | @construct before c after split =>
    obtain ⟨front, back, lines, length, -⟩ := unit.exists_frame
    have framed : StandsAt (separatedLines (unit.classDecl.groups unit.innerDepth)) unit.headHeight
        unit.source.lines := ⟨front, back, lines, length⟩
    rw [Nat.add_assoc]
    refine framed.trans ?_
    rw [groups_eq, split, List.map_append, List.map_cons, ← List.append_assoc]
    have stands := standsAt_separatedLines
      ((if unit.classDecl.fields.isEmpty then []
        else [unit.classDecl.fields.map (FieldDecl.line unit.innerDepth)])
        ++ before.map (Construct.lines unit.innerDepth)) (after.map (Construct.lines unit.innerDepth))
      (c.lines unit.innerDepth)
    convert stands using 1
    rw [List.map_append, List.sum_append, List.map_map]
    congr 1
    · unfold fieldsHeight
      split <;> simp
    · simp [Function.comp_def, Construct.length_lines]
  | held _ holds ih => exact ih.trans (holds.stands _)

/-- A group of the class is that of the fields, or the lines of a member or a method. -/
theorem exists_construct_of_groups {before after : List (List SourceLine)} {group : List SourceLine}
    (split : unit.classDecl.groups depth = before ++ group :: after) :
    before = [] ∧ group = unit.classDecl.fields.map (FieldDecl.line depth) ∨
      ∃ earlier c later, unit.constructs = earlier ++ c :: later ∧ group = c.lines depth ∧
        (before.map (·.length + 1)).sum = unit.fieldsHeight + (earlier.map (·.height + 1)).sum := by
  have ofConstructs : ∀ before', unit.constructs.map (Construct.lines depth) =
      before' ++ group :: after → ∃ earlier c later, unit.constructs = earlier ++ c :: later ∧
        group = c.lines depth ∧
        (before'.map (·.length + 1)).sum = (earlier.map (·.height + 1)).sum := by
    intro before' made
    obtain ⟨earlier, others, eq, rfl, rest⟩ := List.map_eq_append_iff.mp made
    obtain ⟨c, later, rfl, rfl, -⟩ := List.map_eq_cons_iff.mp rest
    refine ⟨earlier, c, later, eq, rfl, ?_⟩
    rw [List.map_map]
    simp [Function.comp_def, Construct.length_lines]
  rw [groups_eq] at split
  by_cases none : unit.classDecl.fields.isEmpty
  · rw [if_pos none, List.nil_append] at split
    obtain ⟨earlier, c, later, eq, same, sum⟩ := ofConstructs before split
    exact .inr ⟨earlier, c, later, eq, same, by rw [sum, fieldsHeight, if_pos none, Nat.zero_add]⟩
  rw [if_neg none, List.singleton_append] at split
  cases before with
  | nil => exact .inl ⟨rfl, (List.cons.inj split).1.symm⟩
  | cons first rest =>
    obtain ⟨rfl, others⟩ := List.cons.inj split
    obtain ⟨earlier, c, later, eq, same, sum⟩ := ofConstructs rest others
    refine .inr ⟨earlier, c, later, eq, same, ?_⟩
    rw [List.map_cons, List.sum_cons, sum, fieldsHeight, if_neg none, List.length_map]

/-- A line is one of those of a construct, or of those that no construct prints. -/
theorem printsLine_or_frame (within : k < unit.source.lines.length) :
    (∃ c, unit.PrintsLine k c) ∨ ∃ line ∈ unit.frameLines, unit.source.lines[k]? = some line := by
  obtain ⟨front, back, lines, length, frame⟩ := unit.exists_frame
  have framed : ∀ line ∈ front ++ back, unit.source.lines[k]? = some line →
      ∃ line ∈ unit.frameLines, unit.source.lines[k]? = some line :=
    fun line member found => ⟨line, frame member, found⟩
  rw [lines, List.length_append, List.length_append] at within
  rcases Nat.lt_or_ge k front.length with before | behind
  · refine .inr (framed front[k] (by simp) ?_)
    rw [lines, List.append_assoc, List.getElem?_append_left before, List.getElem?_eq_getElem before]
  obtain ⟨i, rfl⟩ : ∃ i, k = front.length + i := ⟨k - front.length, by omega⟩
  have skipped : unit.source.lines[front.length + i]? =
      (separatedLines (unit.classDecl.groups unit.innerDepth) ++ back)[i]? := by
    rw [lines, List.append_assoc, List.getElem?_append_right behind, Nat.add_sub_cancel_left]
  rcases Nat.lt_or_ge i (separatedLines (unit.classDecl.groups unit.innerDepth)).length with
    inside | beyond
  · rcases exists_group_of_lt inside with empty | ⟨before, group, after, j, split, place, here⟩
    · refine .inr ⟨⟨"", none⟩, by simp [frameLines], ?_⟩
      rw [skipped, List.getElem?_append_left inside, empty]
    rcases exists_construct_of_groups split with ⟨rfl, rfl⟩ | ⟨earlier, c, later, eq, rfl, sum⟩
    · obtain rfl : i = j := by simpa using place
      have stands := standsAt_separatedLines [] after
        (unit.classDecl.fields.map (FieldDecl.line unit.innerDepth))
      have found : (separatedLines (unit.classDecl.groups unit.innerDepth))[i]? =
          some (unit.classDecl.fields.map (FieldDecl.line unit.innerDepth))[i] := by
        rw [split, ← List.getElem?_eq_getElem here, ← stands.getElem? here]
        simp
      have fields : unit.classDecl.fields.map (FieldDecl.line unit.innerDepth) ⊆
          unit.frameLines :=
        List.subset_append_of_subset_left _ (List.subset_append_right _ _)
      exact .inr ⟨_, fields (List.getElem_mem here),
        (skipped.trans (List.getElem?_append_left inside)).trans found⟩
    · refine .inl ⟨c, _, _, .construct eq, ?_⟩
      rw [Construct.length_lines] at here
      omega
  · obtain ⟨j, rfl⟩ : ∃ j, i = (separatedLines (unit.classDecl.groups unit.innerDepth)).length + j :=
      ⟨_, (Nat.add_sub_cancel' beyond).symm⟩
    have last : j < back.length := by omega
    refine .inr (framed back[j] (by simp) ?_)
    rw [skipped, List.getElem?_append_right beyond, Nat.add_sub_cancel_left,
      List.getElem?_eq_getElem last]

/-- Where a construct prints a line, some construct is the innermost that does. -/
theorem PrintsLine.exists_innermost (prints : unit.PrintsLine k c) : ∃ c, unit.InnermostAt k c := by
  obtain ⟨height, same⟩ : ∃ height, height = c.height := ⟨_, rfl⟩
  induction height using Nat.strong_induction_on generalizing c with
  | _ height ih =>
    obtain ⟨depth, start, printed, from_, to_⟩ := prints
    by_cases held : ∃ levels offset s, c.Holds levels offset s ∧ start + offset ≤ k ∧
        k < start + offset + (Construct.statement s).height
    · obtain ⟨levels, offset, s, holds, lower, upper⟩ := held
      exact ih _ (same ▸ holds.height_lt) ⟨_, _, printed.held holds, lower, upper⟩ rfl
    · refine ⟨c, depth, start, printed, from_, to_, fun levels offset s holds inside => held ?_⟩
      exact ⟨levels, offset, s, holds, inside⟩

theorem getElem?_lineOrigins (source : SourceText) (k : Nat) :
    source.lineOrigins[k]? = (source.lines[k]?).map SourceLine.origin :=
  List.getElem?_map

/-- A line comes from the node of the innermost construct that prints it. -/
theorem InnermostAt.origin (innermost : unit.InnermostAt k c) :
    unit.source.lineOrigins[k]? = some c.origin := by
  obtain ⟨depth, start, prints, lower, upper, alone⟩ := innermost
  obtain ⟨j, rfl⟩ : ∃ j, k = start + j := ⟨k - start, by omega⟩
  have inside : j < c.height := by omega
  rw [getElem?_lineOrigins, prints.stands.getElem? (by rwa [Construct.length_lines])]
  rcases Construct.held_or_own inside with ⟨levels, offset, s, holds, from_, to_⟩ | ⟨_, _, _, own⟩
  · exact absurd ⟨by omega, by omega⟩ (alone levels offset s holds)
  · rw [own depth, Option.map_some, sourceLine_origin]

/-- The first line of a statement is its own. -/
theorem Prints.innermost_start (prints : unit.Prints depth start (.statement s)) :
    unit.InnermostAt start (.statement s) := by
  obtain ⟨text, rest, first⟩ := Construct.exists_pieces s
  have positive : 0 < (Construct.statement s).height := by
    rw [Construct.height, Construct.lines_eq]
    simp [Construct.pieces, first, Piece.lines]
  refine ⟨depth, start, prints, le_rfl, by omega, fun levels offset inner holds inside => ?_⟩
  have behind := holds.offset_pos
  omega

/-- Members, methods and their statements are printed behind the fields. -/
theorem Prints.behind (prints : unit.Prints depth start c) :
    unit.headHeight + unit.fieldsHeight ≤ start := by
  induction prints with
  | construct => exact Nat.le_add_right _ _
  | held _ _ ih => exact ih.trans (Nat.le_add_right _ _)

/-- Every statement of a method is printed, however deep it stands. -/
theorem exists_prints {block : List Stmt} (standing : StandsIn s block)
    (printed : ∀ s ∈ block, ∃ depth start, unit.Prints depth start (.statement s)) :
    ∃ depth start, unit.Prints depth start (.statement s) := by
  induction standing with
  | here member => exact printed _ member
  | inside member body _ ih =>
    obtain ⟨depth, start, prints⟩ := printed _ member
    refine ih fun inner within => ?_
    obtain ⟨levels, offset, holds⟩ := Construct.exists_holds_of_bodies body within
    exact ⟨_, _, prints.held holds⟩

theorem exists_prints_of_method {m : MethodDecl} (declared : m ∈ unit.classDecl.methods)
    (standing : StandsIn s m.body) : ∃ depth start, unit.Prints depth start (.statement s) := by
  have among : .method m ∈ unit.constructs := by simp [constructs, declared]
  obtain ⟨before, after, split⟩ := List.append_of_mem among
  refine exists_prints standing fun inner member => ?_
  have part : .block 1 m.body ∈ (Construct.method m).pieces := by
    simp [Construct.pieces, bracedPieces]
  obtain ⟨offset, holds⟩ := Construct.exists_holds part member
  exact ⟨_, _, (Prints.construct split).held holds⟩

theorem origin_of_frame {line : SourceLine} (frame : line ∈ unit.frameLines) :
    line.origin = none := by
  simp only [frameLines, usingLines, List.mem_append, List.mem_map, List.mem_cons] at frame
  rcases frame with ((import_ | ⟨_, _, rfl⟩) | ⟨f, _, rfl⟩) | rfl | ⟨_, _, rfl⟩ | ⟨_, _, rfl⟩
  · split at import_
    · simp at import_
    · simp only [List.mem_append, List.mem_map, List.mem_singleton] at import_
      rcases import_ with ⟨_, _, rfl⟩ | rfl
      · exact sourceLine_origin ..
      · rfl
  · exact sourceLine_origin ..
  · unfold FieldDecl.line
    cases f.value <;> exact sourceLine_origin ..
  · rfl
  · exact sourceLine_origin ..
  · exact sourceLine_origin ..

theorem unbroken_frame (clean : ∀ text ∈ unit.verbatim, Unbroken text) {line : SourceLine}
    (frame : line ∈ unit.frameLines) : Unbroken line.text := by
  simp only [verbatim, List.forall_mem_append, List.forall_mem_cons] at clean
  obtain ⟨⟨⟨⟨usings, namespaces⟩, className, base⟩, fields⟩, -⟩ := clean
  have head : Unbroken unit.classDecl.head := by
    unfold ClassDecl.head
    cases inherited : unit.classDecl.base with
    | none => exact unbroken_append.mpr ⟨by decide, className⟩
    | some inherited' =>
      have := base inherited' (by simp [inherited])
      simp +decide [className, this]
  simp only [frameLines, usingLines, List.mem_append, List.mem_map, List.mem_cons] at frame
  rcases frame with ((imported | ⟨_, named, rfl⟩) | ⟨f, member, rfl⟩) | rfl | ⟨_, brace, rfl⟩ |
    ⟨_, around, rfl⟩
  · split at imported
    · simp at imported
    · simp only [List.mem_append, List.mem_map, List.mem_singleton] at imported
      rcases imported with ⟨name, member, rfl⟩ | rfl
      · simp +decide [usings name member]
      · decide
  · simp +decide [namespaces _ named]
  · have texts : ∀ text ∈ f.type :: f.name :: (f.value.map Expr.text).toList, Unbroken text :=
      fun text within => fields text (List.mem_flatMap.mpr ⟨f, member, within⟩)
    unfold FieldDecl.line
    cases value : f.value <;> simp_all +decide
  · decide
  · rcases brace with rfl | rfl | absurd <;> simp_all +decide
  · rcases around with rfl | rfl | rfl | absurd <;> simp_all +decide

/-- What a construct prints as it is, the unit prints as it is. -/
theorem Prints.unbroken (prints : unit.Prints depth start c)
    (clean : ∀ text ∈ unit.verbatim, Unbroken text) : ∀ text ∈ c.verbatim, Unbroken text := by
  induction prints with
  | @construct before c after split =>
    refine fun text member => clean text ?_
    simp only [verbatim, split, List.mem_append, List.mem_flatMap]
    exact .inr ⟨c, by simp, member⟩
  | held _ holds ih => exact holds.unbroken ih

/-- No line of a unit whose texts are without line breaks holds one. -/
theorem unbroken_lines (clean : ∀ text ∈ unit.verbatim, Unbroken text) :
    ∀ line ∈ unit.source.lines, Unbroken line.text := by
  intro line member
  obtain ⟨k, within, rfl⟩ := List.getElem_of_mem member
  rcases printsLine_or_frame within with ⟨_, printed⟩ | ⟨line, frame, found⟩
  · obtain ⟨c, depth, start, prints, lower, upper, alone⟩ := printed.exists_innermost
    obtain ⟨j, rfl⟩ : ∃ j, k = start + j := ⟨k - start, by omega⟩
    have inside : j < c.height := by omega
    rcases Construct.held_or_own inside with ⟨levels, offset, s, holds, _, _⟩ | ⟨_, text, own, here⟩
    · exact absurd ⟨by omega, by omega⟩ (alone levels offset s holds)
    have found := prints.stands.getElem? (by rwa [Construct.length_lines])
    rw [here depth, List.getElem?_eq_getElem within, Option.some.injEq] at found
    rw [found, unbroken_sourceLine]
    exact c.unbroken_pieces (prints.unbroken clean) _ own
  · rw [List.getElem?_eq_getElem within, Option.some.injEq] at found
    exact found ▸ unbroken_frame clean frame

/-- A unit has lines, if only those of the class. -/
theorem lines_ne_nil (unit : CodeUnit) : unit.source.lines ≠ [] := by
  intro none
  obtain ⟨front, back, lines, length, -⟩ := unit.exists_frame
  have positive : 0 < front.length := by rw [length, headHeight]; omega
  rw [none] at lines
  simp_all

end CodeUnit

section Text

variable {source : SourceText}

/-- The text of lines is each of them with a line break behind it. -/
theorem SourceText.toList_text (some_ : source.lines ≠ []) :
    source.text.toList = source.lines.flatMap fun line => line.text.toList ++ ['\n'] := by
  obtain ⟨lines⟩ := source
  simp only [SourceText.text, String.toList_append, String.toList_intercalate] at some_ ⊢
  induction lines with
  | nil => exact absurd rfl some_
  | cons line rest ih =>
    cases rest with
    | nil => simp
    | cons next rest => simpa using ih (by simp)

/-- Lines without line breaks are read back from their text. -/
theorem SourceText.splitOn_text (some_ : source.lines ≠ [])
    (clean : ∀ line ∈ source.lines, Unbroken line.text) :
    source.text.toList.splitOn '\n' = source.lines.map (·.text.toList) ++ [[]] := by
  rw [toList_text some_]
  clear some_
  generalize source.lines = lines at clean ⊢
  induction lines with
  | nil => rfl
  | cons line rest ih =>
    rw [List.forall_mem_cons] at clean
    rw [List.flatMap_cons, List.append_assoc, List.singleton_append,
      List.splitOn_append_cons_self_of_not_mem clean.1, ih clean.2]
    rfl

/-- A line that has a node belongs to it. -/
theorem SourceText.originOfLine_eq {k : Nat} {n : NodeId}
    (origin : source.lineOrigins[k]? = some (some n)) : source.originOfLine (k + 1) = some n := by
  rw [originOfLine, List.take_add_one, origin]
  simp

theorem SourceText.mem_linesOf {k : Nat} {n : NodeId}
    (origin : source.lineOrigins[k]? = some (some n)) : k + 1 ∈ source.linesOf n := by
  have paired : (some n, k) ∈ source.lineOrigins.zipIdx := List.mk_mem_zipIdx_iff_getElem?.mpr origin
  exact List.mem_map.mpr ⟨_, List.mem_filter.mpr ⟨paired, by simp⟩, rfl⟩

end Text

namespace CodeUnit

/-- The lines of a unit and the nodes that they come from. -/
structure LineMap (unit : CodeUnit) : Prop where
  /-- The text is the lines, each with a line break behind it. -/
  written : unit.source.text.toList =
    unit.source.lines.flatMap fun line => line.text.toList ++ ['\n']
  /-- Read by its line breaks, the text is the lines and nothing behind the last. -/
  counted : unit.source.text.toList.splitOn '\n' = unit.source.lines.map (·.text.toList) ++ [[]]
  paired : unit.source.lineOrigins.length = unit.source.lineCount
  /-- What is printed stands where it is printed, which is behind the head and the fields. -/
  placed : ∀ depth start c, unit.Prints depth start c →
    unit.headHeight + unit.fieldsHeight ≤ start ∧
      StandsAt (c.lines depth) start unit.source.lines
  innermost : ∀ k c, unit.InnermostAt k c → unit.source.lineOrigins[k]? = some c.origin
  /-- A line has an innermost construct, or no construct prints it and it has no node. -/
  covered : ∀ k < unit.source.lineCount, (∃ c, unit.InnermostAt k c) ∨
    (∀ c, ¬ unit.PrintsLine k c) ∧ (∃ line ∈ unit.frameLines, unit.source.lines[k]? = some line) ∧
      unit.source.lineOrigins[k]? = some none
  /-- Every statement at any depth owns the line where it starts. -/
  owned : ∀ m ∈ unit.classDecl.methods, ∀ s, StandsIn s m.body →
    ∃ depth start, unit.Prints depth start (.statement s) ∧
      unit.InnermostAt start (.statement s) ∧
      ∀ n, s.origin = some n → start + 1 ∈ unit.source.linesOf n
  /-- What a compiler says about a line of a statement is told of the node of the statement. -/
  reported : ∀ (compiler : ScriptCompiler) (g : Graph) (options : TranslationOptions)
    (record : Option TraceRecord),
    let translation := TranslationEnv.translate ⟨g, compiler.oracle, options, compiler.translators⟩
      (if options.trace then record else none)
    let diagnostics := compiler.backend unit.classDecl.name unit.source.text
    let errors : List CompilerError := (compiler.compile g options record).1.errors
    translation.unit = unit → translation.errors = [] → errors.length = diagnostics.length ∧
      ∀ (i : Nat) (d : Diagnostic), diagnostics[i]? = some d → ∀ k s n, d.line = some (k + 1) →
        unit.InnermostAt k (.statement s) → s.origin = some n →
        errors[i]? = some ⟨d.message, some n, .compilation, some (k + 1)⟩

/-- The lines of a unit whose texts are without line breaks belong to the nodes of what prints
them. -/
theorem lineMap_exact (unit : CodeUnit) (clean : ∀ text ∈ unit.verbatim, Unbroken text) :
    unit.LineMap where
  written := SourceText.toList_text unit.lines_ne_nil
  counted := SourceText.splitOn_text unit.lines_ne_nil (unbroken_lines clean)
  paired := List.length_map _
  placed _ _ _ prints := ⟨prints.behind, prints.stands⟩
  innermost _ _ innermost := innermost.origin
  covered k within := by
    by_cases printed : ∃ c, unit.PrintsLine k c
    · obtain ⟨c, prints⟩ := printed
      exact .inl prints.exists_innermost
    · obtain ⟨line, frame, found⟩ := (printsLine_or_frame within).resolve_left printed
      refine .inr ⟨not_exists.mp printed, ⟨line, frame, found⟩, ?_⟩
      rw [getElem?_lineOrigins, found, Option.map_some, origin_of_frame frame]
  owned m declared s standing := by
    obtain ⟨depth, start, prints⟩ := exists_prints_of_method declared standing
    have first := prints.innermost_start
    refine ⟨depth, start, prints, first, fun n made => SourceText.mem_linesOf ?_⟩
    rw [first.origin, Construct.origin, made]
  reported compiler g options record := by
    rintro translation diagnostics errors rfl faultless
    have reports : errors = diagnostics.map (GraphTools.locate translation.unit.source) := by
      simp only [errors, ScriptCompiler.compile_eq]
      rw [show TranslationEnv.translate _ _ = translation from rfl, faultless]
      rfl
    refine ⟨by rw [reports, List.length_map], fun i d found k s n line innermost made => ?_⟩
    have origin := innermost.origin
    rw [Construct.origin, made] at origin
    rw [reports, List.getElem?_map, found, Option.map_some, GraphTools.locate, line,
      Option.bind_some, SourceText.originOfLine_eq origin]

end CodeUnit

open NodeScript.Graph (placed wired numbered)

/-- A function for every frame that is left in the first round of a loop. -/
def vigil : Graph :=
  { Graph.empty "Vigil" with
    nodes := ⟨
      [placed 10 (.function (.onEvent .update)) none [⟨numbered 20⟩] [.execOutput "Out"],
        placed 20 .repeated (some ⟨numbered 10⟩) [] [.dataInput "Condition" .bool,
          .execOutput "Body"],
        placed 30 .loopStack none [⟨numbered 40⟩] [.execInput "In"],
        placed 40 .leave (some ⟨numbered 30⟩) [] []], by decide⟩
    edges := ⟨[wired 51 20 22 30 31], by decide⟩ }

def vigilEnv : TranslationEnv := ⟨vigil, TypeDatabase.empty.toOracle, .standard, ∅⟩

theorem CodeUnit.lineMap_exact_vigil :
    (∀ text ∈ (vigilEnv.translate none).unit.verbatim, Unbroken text) ∧
      (vigilEnv.translate none).errors = [] ∧ (vigilEnv.translate none).unit.LineMap := by
  have clean : ∀ text ∈ (vigilEnv.translate none).unit.verbatim, Unbroken text := by
    decide +kernel
  exact ⟨clean, by decide +kernel, lineMap_exact _ clean⟩

/-- The eleventh line of the text leaves the loop. -/
example :
    ((ScriptCompiler.plain TypeDatabase.empty.toOracle fun _ _ => [⟨"unreachable", some 11⟩]).compile
      vigil .standard none).1.errors =
      [⟨"unreachable", some ⟨numbered 40⟩, .compilation, some 11⟩] := by
  decide +kernel

end NodeScript
