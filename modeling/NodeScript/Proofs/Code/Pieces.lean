import Mathlib
import NodeScript.Code.Source

/-!
Members, methods and statements as they are printed, part by part. Each prints lines of its own and,
among them, the statements that it holds, which stand where they are held at any depth.
-/

namespace NodeScript

section Places

variable {α : Type} {part inner whole : List α} {start offset j : Nat}

/-- A list stands in another behind so many of its elements. -/
def StandsAt (part : List α) (start : Nat) (whole : List α) : Prop :=
  ∃ before after, whole = before ++ part ++ after ∧ before.length = start

theorem StandsAt.trans (outer : StandsAt part start whole) (stands : StandsAt inner offset part) :
    StandsAt inner (start + offset) whole := by
  obtain ⟨before, after, rfl, rfl⟩ := outer
  obtain ⟨before', after', rfl, rfl⟩ := stands
  exact ⟨before ++ before', after' ++ after, by simp, by simp⟩

theorem StandsAt.getElem? (stands : StandsAt part start whole) (within : j < part.length) :
    whole[start + j]? = part[j]? := by
  obtain ⟨before, after, rfl, rfl⟩ := stands
  rw [List.append_assoc, List.getElem?_append_right (Nat.le_add_right _ _), Nat.add_sub_cancel_left,
    List.getElem?_append_left within]

theorem StandsAt.length_le (stands : StandsAt part start whole) :
    start + part.length ≤ whole.length := by
  obtain ⟨before, after, rfl, rfl⟩ := stands
  simp

/-- What a list is put together of stands in it one after the other. -/
theorem standsAt_flatMap {β : Type} (lines : β → List α) (before after : List β) (b : β) :
    StandsAt (lines b) (before.flatMap lines).length ((before ++ b :: after).flatMap lines) :=
  ⟨before.flatMap lines, after.flatMap lines, by simp, rfl⟩

/-- An element of a list that is put together comes from one of its parts. -/
theorem exists_part_of_lt {β : Type} {lines : β → List α} {parts : List β} {k : Nat}
    (within : k < (parts.flatMap lines).length) :
    ∃ before b after j, parts = before ++ b :: after ∧ k = (before.flatMap lines).length + j ∧
      j < (lines b).length := by
  induction parts generalizing k with
  | nil => simp at within
  | cons b rest ih =>
    by_cases first : k < (lines b).length
    · exact ⟨[], b, rest, k, rfl, by simp, first⟩
    · have later : k - (lines b).length < (rest.flatMap lines).length := by
        rw [List.flatMap_cons, List.length_append] at within
        omega
      obtain ⟨before, b', after, j, rfl, place, inside⟩ := ih later
      refine ⟨b :: before, b', after, j, rfl, ?_, inside⟩
      rw [List.flatMap_cons, List.length_append]
      omega

end Places

mutual

/-- The texts that a statement prints as they are. -/
def Stmt.verbatim : Stmt → List String
  | .effect _ value => [value.text]
  | .declare _ type name value => type.toList ++ name :: (value.map Expr.text).toList
  | .assign _ target value => [target.text, value.text]
  | .branch _ condition thenBody elseBody =>
    condition.text :: Stmt.verbatimAll thenBody ++ Stmt.verbatimAll elseBody
  | .select _ value cases fallback =>
    value.text :: SwitchCase.verbatimAll cases ++ Stmt.verbatimAll fallback
  | .repeated _ condition body => condition.text :: Stmt.verbatimAll body
  | .forEach _ item collection body => item :: collection.text :: Stmt.verbatimAll body
  | .leave _ value => (value.map Expr.text).toList
  | .comment _ text => [text]

def Stmt.verbatimAll : List Stmt → List String
  | [] => []
  | s :: rest => s.verbatim ++ Stmt.verbatimAll rest

def SwitchCase.verbatimAll : List SwitchCase → List String
  | [] => []
  | .mk _ body :: rest => Stmt.verbatimAll body ++ SwitchCase.verbatimAll rest

end

/-- A part of what is printed: a line, or the lines of statements, so many levels deeper. -/
inductive Piece where
  | own (levels : Nat) (text : String)
  | block (levels : Nat) (body : List Stmt)

/-- The lines of a part; its own are those of a node. -/
def Piece.lines (depth : Nat) (origin : Option NodeId) : Piece → List SourceLine
  | .own levels text => [sourceLine (depth + levels) origin text]
  | .block levels body => Stmt.blockLines (depth + levels) body

/-- Statements between braces. -/
def bracedPieces (body : List Stmt) : List Piece := [.own 0 "\x7b", .block 1 body, .own 0 "\x7d"]

/-- A case: its label, its statements, and the line that ends it unless it leaves the method. -/
def casePieces (label : String) (body : List Stmt) : List Piece :=
  .own 1 label :: .block 2 body
    :: if (body.getLast?.map Stmt.isLeave).getD false then [] else [.own 2 "break;"]

def SwitchCase.pieces : SwitchCase → List Piece
  | .mk label body => casePieces ("case " ++ intText label.toInt ++ ":") body

/-- What a statement prints, part by part. -/
def Stmt.pieces : Stmt → List Piece
  | .branch _ condition thenBody elseBody =>
    .own 0 ("if (" ++ condition.text ++ ")") :: bracedPieces thenBody
      ++ if elseBody.isEmpty then [] else .own 0 "else" :: bracedPieces elseBody
  | .select _ value cases fallback =>
    .own 0 ("switch (" ++ value.text ++ ")") :: .own 0 "\x7b"
      :: cases.flatMap SwitchCase.pieces ++ casePieces "default:" fallback ++ [.own 0 "\x7d"]
  | .repeated _ condition body => .own 0 ("while (" ++ condition.text ++ ")") :: bracedPieces body
  | .forEach _ item collection body =>
    .own 0 ("foreach (var " ++ item ++ " in " ++ collection.text ++ ")") :: bracedPieces body
  | .effect _ value => [.own 0 (value.text ++ ";")]
  | .declare _ type name value =>
    let assigned := match value with
      | some value => " = " ++ value.text ++ ";"
      | none => ";"
    [.own 0 (type.getD "var" ++ " " ++ name ++ assigned)]
  | .assign _ target value => [.own 0 (target.text ++ " = " ++ value.text ++ ";")]
  | .leave _ value =>
    match value with
    | some value => [.own 0 ("return " ++ value.text ++ ";")]
    | none => [.own 0 "return;"]
  | .comment _ text => [.own 0 ("// " ++ text)]

section Layout

variable {depth : Nat} {origin : Option NodeId}

theorem bracedPieces_lines (body : List Stmt) :
    (bracedPieces body).flatMap (Piece.lines depth origin) =
      bracedLines depth origin (Stmt.blockLines (depth + 1) body) := by
  simp [bracedPieces, bracedLines, Piece.lines]

theorem casePieces_lines (label : String) (body : List Stmt) :
    (casePieces label body).flatMap (Piece.lines depth origin) =
      sourceLine (depth + 1) origin label :: Stmt.blockLines (depth + 2) body
        ++ breakLines (depth + 2) origin body := by
  unfold casePieces breakLines
  split <;> simp [Piece.lines]

theorem SwitchCase.lines_eq (cases : List SwitchCase) :
    SwitchCase.lines (depth + 1) origin cases =
      (cases.flatMap SwitchCase.pieces).flatMap (Piece.lines depth origin) := by
  induction cases with
  | nil => rfl
  | cons c rest ih =>
    obtain ⟨label, body⟩ := c
    rw [SwitchCase.lines, ih, List.flatMap_cons, List.flatMap_append, SwitchCase.pieces,
      casePieces_lines]

theorem Stmt.lines_eq (s : Stmt) :
    s.lines depth = s.pieces.flatMap (Piece.lines depth s.origin) := by
  cases s with
  | branch origin condition thenBody elseBody =>
    rw [Stmt.lines, Stmt.pieces, List.flatMap_append, List.flatMap_cons, bracedPieces_lines]
    split
    · rfl
    · rw [List.flatMap_cons, bracedPieces_lines]
      rfl
  | select origin value cases fallback =>
    simp only [Stmt.lines, Stmt.pieces, SwitchCase.lines_eq, bracedLines, List.flatMap_append,
      List.flatMap_cons, casePieces_lines, Stmt.origin]
    simp [Piece.lines]
  | repeated origin condition body | forEach origin item collection body =>
    rw [Stmt.lines, Stmt.pieces, List.flatMap_cons, bracedPieces_lines]
    rfl
  | declare origin type name value =>
    cases value <;> simp [Stmt.lines, Stmt.pieces, Piece.lines, Stmt.origin, String.append_assoc]
  | leave origin value => cases value <;> rfl
  | _ => rfl

end Layout

mutual

/-- How deep a statement stands makes no difference to the number of its lines. -/
theorem Stmt.length_lines (s : Stmt) (depth depth' : Nat) :
    (s.lines depth).length = (s.lines depth').length := by
  cases s with
  | branch origin condition thenBody elseBody =>
    have first := Stmt.length_blockLines thenBody (depth + 1) (depth' + 1)
    have second := Stmt.length_blockLines elseBody (depth + 1) (depth' + 1)
    simp only [Stmt.lines, bracedLines]
    split <;> simp [first, second]
  | select origin value cases fallback =>
    have first := SwitchCase.length_lines cases (depth + 1) (depth' + 1) origin
    have second := Stmt.length_blockLines fallback (depth + 2) (depth' + 2)
    simp only [Stmt.lines, bracedLines, breakLines]
    split <;> simp [first, second]
  | repeated origin condition body | forEach origin item collection body =>
    have inner := Stmt.length_blockLines body (depth + 1) (depth' + 1)
    simp [Stmt.lines, bracedLines, inner]
  | declare origin type name value => cases value <;> rfl
  | leave origin value => cases value <;> rfl
  | _ => rfl

theorem Stmt.length_blockLines (body : List Stmt) (depth depth' : Nat) :
    (Stmt.blockLines depth body).length = (Stmt.blockLines depth' body).length := by
  cases body with
  | nil => rfl
  | cons s rest =>
    simp [Stmt.blockLines, s.length_lines depth depth', Stmt.length_blockLines rest depth depth']

theorem SwitchCase.length_lines (cases : List SwitchCase) (depth depth' : Nat)
    (origin : Option NodeId) :
    (SwitchCase.lines depth origin cases).length =
      (SwitchCase.lines depth' origin cases).length := by
  match cases with
  | [] => rfl
  | .mk label body :: rest =>
    have first := Stmt.length_blockLines body (depth + 1) (depth' + 1)
    have second := SwitchCase.length_lines rest depth depth' origin
    simp only [SwitchCase.lines, breakLines]
    split <;> simp [first, second]

end

theorem Stmt.blockLines_eq (depth : Nat) (body : List Stmt) :
    Stmt.blockLines depth body = body.flatMap (Stmt.lines depth) := by
  induction body with
  | nil => rfl
  | cons s rest ih => rw [Stmt.blockLines, ih, List.flatMap_cons]

theorem Piece.length_lines (p : Piece) (depth depth' : Nat) (origin origin' : Option NodeId) :
    (p.lines depth origin).length = (p.lines depth' origin').length := by
  cases p with
  | own => rfl
  | block levels body => exact Stmt.length_blockLines body _ _

theorem sourceLine_origin (depth : Nat) (origin : Option NodeId) (text : String) :
    (sourceLine depth origin text).origin = origin := by
  unfold sourceLine
  split <;> rfl

/-- The blocks of statements inside a statement. -/
def Stmt.bodies : Stmt → List (List Stmt)
  | .branch _ _ thenBody elseBody => [thenBody, elseBody]
  | .select _ _ cases fallback => cases.map (fun | .mk _ body => body) ++ [fallback]
  | .repeated _ _ body | .forEach _ _ _ body => [body]
  | _ => []

/-- A statement is one of a block, or one of a block inside it, at any depth. -/
inductive StandsIn : Stmt → List Stmt → Prop
  | here {s block} : s ∈ block → StandsIn s block
  | inside {s outer body block} :
      outer ∈ block → body ∈ outer.bodies → StandsIn s body → StandsIn s block

/-- The declaration of a method in front of its body. -/
def MethodDecl.head (m : MethodDecl) : String :=
  m.visibility.keyword ++ " " ++ m.returnType ++ " " ++ m.name ++ "("
    ++ ", ".intercalate (m.parameters.map fun p => p.type ++ " " ++ p.name) ++ ")"

/-- The declaration of a class in front of its inside. -/
def ClassDecl.head (c : ClassDecl) : String :=
  match c.base with
  | some base => "public class " ++ c.name ++ " : " ++ base
  | none => "public class " ++ c.name

/-- What prints lines inside a class and knows the node that it comes from. -/
inductive Construct where
  | member (m : MemberDecl)
  | method (m : MethodDecl)
  | statement (s : Stmt)

namespace Construct

/-- The node that a construct comes from. -/
def origin : Construct → Option NodeId
  | .member m => m.origin
  | .method m => m.origin
  | .statement s => s.origin

/-- The lines of a construct. -/
def lines (depth : Nat) : Construct → List SourceLine
  | .member m => m.sourceLines depth
  | .method m => m.lines depth
  | .statement s => s.lines depth

/-- The texts that a construct prints as they are. -/
def verbatim : Construct → List String
  | .member m => m.lines
  | .method m => m.returnType :: m.name :: m.parameters.flatMap (fun p => [p.type, p.name])
    ++ Stmt.verbatimAll m.body
  | .statement s => s.verbatim

/-- The number of lines of a construct. -/
def height (c : Construct) : Nat := (c.lines 0).length

/-- What a construct prints, part by part. -/
def pieces : Construct → List Piece
  | .member m => m.lines.map (.own 0)
  | .method m => .own 0 m.head :: bracedPieces m.body
  | .statement s => s.pieces

/-- A construct holds a statement, so many levels deeper and behind so many of its lines. -/
inductive Holds (c : Construct) : (levels offset : Nat) → Stmt → Prop
  | block {before levels earlier s later after} :
      c.pieces = before ++ .block levels (earlier ++ s :: later) :: after →
      Holds c levels
        ((before.flatMap (Piece.lines 0 none)).length + (earlier.flatMap (Stmt.lines 0)).length) s

variable {c : Construct} {s : Stmt} {levels offset k : Nat}

theorem lines_eq (c : Construct) (depth : Nat) :
    c.lines depth = c.pieces.flatMap (Piece.lines depth c.origin) := by
  cases c with
  | member m =>
    simp only [lines, MemberDecl.sourceLines, pieces, List.flatMap_map, Piece.lines]
    exact List.map_eq_flatMap
  | method m =>
    rw [lines, MethodDecl.lines, pieces, List.flatMap_cons, bracedPieces_lines]
    rfl
  | statement s => exact s.lines_eq

theorem length_flatMap_lines (pieces : List Piece) (depth depth' : Nat)
    (origin origin' : Option NodeId) :
    (pieces.flatMap (Piece.lines depth origin)).length =
      (pieces.flatMap (Piece.lines depth' origin')).length := by
  rw [List.length_flatMap, List.length_flatMap]
  congr 1
  exact List.map_congr_left fun p _ => p.length_lines _ _ _ _

theorem length_lines (c : Construct) (depth : Nat) : (c.lines depth).length = c.height := by
  rw [height, lines_eq, lines_eq, length_flatMap_lines]

theorem length_flatMap_stmts (body : List Stmt) (depth depth' : Nat) :
    (body.flatMap (Stmt.lines depth)).length = (body.flatMap (Stmt.lines depth')).length := by
  rw [← Stmt.blockLines_eq, ← Stmt.blockLines_eq, Stmt.length_blockLines]

/-- What a construct holds stands in its lines where it should. -/
theorem Holds.stands (holds : c.Holds levels offset s) (depth : Nat) :
    StandsAt (s.lines (depth + levels)) offset (c.lines depth) := by
  obtain ⟨made⟩ := holds
  rename_i before earlier later after
  rw [lines_eq, made, length_flatMap_lines before 0 depth none c.origin,
    length_flatMap_stmts earlier 0 (depth + levels)]
  refine (standsAt_flatMap _ before after _).trans ?_
  rw [Piece.lines, Stmt.blockLines_eq]
  exact standsAt_flatMap _ earlier later s

/-- A line of a construct belongs to a statement that it holds, or is its own. -/
theorem held_or_own (within : k < c.height) :
    (∃ levels offset s, c.Holds levels offset s ∧ offset ≤ k ∧
      k < offset + (statement s).height) ∨
      ∃ levels text, .own levels text ∈ c.pieces ∧
        ∀ depth, (c.lines depth)[k]? = some (sourceLine (depth + levels) c.origin text) := by
  rw [height, lines_eq] at within
  obtain ⟨before, piece, after, j, made, place, inside⟩ := exists_part_of_lt within
  rw [length_flatMap_lines before 0 0 c.origin none] at place
  cases piece with
  | own levels text =>
    obtain rfl : j = 0 := by simpa [Piece.lines] using inside
    refine .inr ⟨levels, text, by simp [made], fun depth => ?_⟩
    have stands := standsAt_flatMap (Piece.lines depth c.origin) before after (.own levels text)
    rw [lines_eq, made, place, length_flatMap_lines before 0 depth none c.origin,
      stands.getElem? (by simp [Piece.lines])]
    simp [Piece.lines]
  | block levels body =>
    rw [Piece.lines, Stmt.blockLines_eq, length_flatMap_stmts body _ 0] at inside
    obtain ⟨earlier, s, later, i, rfl, place', inside⟩ := exists_part_of_lt inside
    refine .inl ⟨levels, _, s, .block made, by omega, ?_⟩
    have height : (statement s).height = (s.lines 0).length := rfl
    omega

/-- A statement begins with a line of its own. -/
theorem exists_pieces (s : Stmt) : ∃ text rest, s.pieces = .own 0 text :: rest := by
  cases s with
  | leave origin value => cases value <;> exact ⟨_, _, rfl⟩
  | _ => exact ⟨_, _, rfl⟩

/-- What a construct holds stands behind a line of its own. -/
theorem Holds.offset_pos (holds : c.Holds levels offset s) : 0 < offset := by
  obtain ⟨made⟩ := holds
  rename_i before earlier later after
  suffices begins : ∃ text others, before = .own 0 text :: others by
    obtain ⟨text, others, rfl⟩ := begins
    simp only [List.flatMap_cons, List.length_append, Piece.lines, List.length_singleton]
    omega
  have ofFirst : ∀ text rest, c.pieces = .own 0 text :: rest →
      ∃ text others, before = .own 0 text :: others := by
    intro text rest first
    cases before with
    | nil => simp [first] at made
    | cons piece others =>
      exact ⟨text, others, by rw [(List.cons.inj (made.symm.trans first)).1]⟩
  cases c with
  | member m =>
    have inside : Piece.block levels (earlier ++ s :: later) ∈ m.lines.map (Piece.own 0) := by
      rw [show m.lines.map (Piece.own 0) = _ from made]
      simp
    simp at inside
  | method m => exact ofFirst _ _ rfl
  | statement outer =>
    obtain ⟨text, rest, first⟩ := exists_pieces outer
    exact ofFirst text rest first

/-- What stands in a part of a construct is held. -/
theorem exists_holds {body : List Stmt} (part : .block levels body ∈ c.pieces) (member : s ∈ body) :
    ∃ offset, c.Holds levels offset s := by
  obtain ⟨before, after, made⟩ := List.append_of_mem part
  obtain ⟨earlier, later, rfl⟩ := List.append_of_mem member
  exact ⟨_, .block made⟩

/-- What stands in a body of a statement is held. -/
theorem exists_holds_of_bodies {outer : Stmt} {body : List Stmt} (inner : body ∈ outer.bodies)
    (member : s ∈ body) : ∃ levels offset, (statement outer).Holds levels offset s := by
  suffices part : ∃ levels, .block levels body ∈ outer.pieces by
    obtain ⟨levels, part⟩ := part
    exact ⟨levels, exists_holds part member⟩
  cases outer with
  | branch origin condition thenBody elseBody =>
    have some : elseBody = body → elseBody.isEmpty = false := by
      rintro rfl
      exact List.isEmpty_eq_false_iff.mpr (List.ne_nil_of_mem member)
    rcases List.mem_cons.mp inner with rfl | last
    · exact ⟨1, by simp [Stmt.pieces, bracedPieces]⟩
    · obtain rfl := List.mem_singleton.mp last
      exact ⟨1, by simp [Stmt.pieces, bracedPieces, some]⟩
  | select origin value cases fallback =>
    simp only [Stmt.bodies, List.mem_append, List.mem_map, List.mem_singleton] at inner
    rcases inner with ⟨⟨label, body⟩, case_, rfl⟩ | rfl
    · refine ⟨2, ?_⟩
      simp only [Stmt.pieces, List.mem_cons, List.mem_append, List.mem_flatMap]
      exact .inl (.inl (.inr (.inr ⟨_, case_, by simp [SwitchCase.pieces, casePieces]⟩)))
    · exact ⟨2, by simp [Stmt.pieces, casePieces]⟩
  | repeated | forEach =>
    obtain rfl := List.mem_singleton.mp inner
    exact ⟨1, by simp [Stmt.pieces, bracedPieces]⟩
  | _ => simp [Stmt.bodies] at inner

/-- What a construct holds has fewer lines. -/
theorem Holds.height_lt (holds : c.Holds levels offset s) : (statement s).height < c.height := by
  have bound := (holds.stands 0).length_le
  have first := holds.offset_pos
  rw [show (s.lines (0 + levels)).length = (statement s).height from length_lines (.statement s) _,
    length_lines] at bound
  omega

end Construct

/-- A text without line breaks. -/
def Unbroken (text : String) : Prop := '\n' ∉ text.toList

instance : DecidablePred Unbroken := fun text => inferInstanceAs (Decidable ('\n' ∉ text.toList))

@[simp]
theorem unbroken_append {a b : String} : Unbroken (a ++ b) ↔ Unbroken a ∧ Unbroken b := by
  simp [Unbroken]

@[simp]
theorem unbroken_keyword (v : Visibility) : Unbroken v.keyword := by
  cases v <;> decide

@[simp]
theorem unbroken_intText (n : Int) : Unbroken (intText n) := by
  have digits : Unbroken (String.ofList (natDigits n.natAbs)) := fun broken => by
    rw [String.toList_ofList] at broken
    exact absurd (Nat.isDigit_of_mem_toDigits (by decide) (by decide) broken) (by decide)
  unfold intText
  split
  · exact unbroken_append.mpr ⟨by decide, digits⟩
  · exact digits

theorem unbroken_intercalate {between : String} {parts : List String} (inside : Unbroken between)
    (clean : ∀ part ∈ parts, Unbroken part) : Unbroken (between.intercalate parts) := by
  induction parts with
  | nil => simp [Unbroken]
  | cons first rest ih =>
    have others := ih fun part member => clean part (.tail _ member)
    have whole := clean first (.head _)
    cases rest with
    | nil => simpa using whole
    | cons next rest => simpa using ⟨⟨whole, inside⟩, others⟩

@[simp]
theorem unbroken_sourceLine {depth : Nat} {origin : Option NodeId} {text : String} :
    Unbroken (sourceLine depth origin text).text ↔ Unbroken text := by
  unfold sourceLine
  split
  · rename_i empty
    rw [String.isEmpty_iff.mp empty]
  · simp [Unbroken]

/-- A part whose texts are without line breaks. -/
def Piece.Unbroken : Piece → Prop
  | .own _ text => NodeScript.Unbroken text
  | .block _ body => ∀ text ∈ Stmt.verbatimAll body, NodeScript.Unbroken text

@[simp]
theorem Piece.unbroken_own {levels : Nat} {text : String} :
    (Piece.own levels text).Unbroken ↔ NodeScript.Unbroken text :=
  Iff.rfl

theorem Stmt.verbatimAll_eq (body : List Stmt) :
    Stmt.verbatimAll body = body.flatMap Stmt.verbatim := by
  induction body with
  | nil => rfl
  | cons s rest ih => rw [Stmt.verbatimAll, ih, List.flatMap_cons]

theorem unbroken_bracedPieces {body : List Stmt}
    (clean : ∀ text ∈ Stmt.verbatimAll body, Unbroken text) :
    ∀ p ∈ bracedPieces body, p.Unbroken := by
  simp only [bracedPieces, List.forall_mem_cons]
  exact ⟨Piece.unbroken_own.mpr (by decide), clean, Piece.unbroken_own.mpr (by decide), by simp⟩

theorem unbroken_casePieces {label : String} {body : List Stmt} (labelled : Unbroken label)
    (clean : ∀ text ∈ Stmt.verbatimAll body, Unbroken text) :
    ∀ p ∈ casePieces label body, p.Unbroken := by
  simp only [casePieces, List.forall_mem_cons]
  refine ⟨labelled, clean, ?_⟩
  split <;> simp +decide

theorem unbroken_switchPieces {cases : List SwitchCase}
    (clean : ∀ text ∈ SwitchCase.verbatimAll cases, Unbroken text) :
    ∀ p ∈ cases.flatMap SwitchCase.pieces, p.Unbroken := by
  induction cases with
  | nil => simp
  | cons c rest ih =>
    obtain ⟨label, body⟩ := c
    simp only [SwitchCase.verbatimAll, List.forall_mem_append] at clean
    rw [List.flatMap_cons, List.forall_mem_append]
    exact ⟨unbroken_casePieces (by simp +decide) clean.1, ih clean.2⟩

theorem Stmt.unbroken_pieces (s : Stmt) (clean : ∀ text ∈ s.verbatim, Unbroken text) :
    ∀ p ∈ s.pieces, p.Unbroken := by
  cases s with
  | branch origin condition thenBody elseBody =>
    simp only [Stmt.verbatim, List.cons_append, List.forall_mem_cons, List.forall_mem_append]
      at clean
    rw [Stmt.pieces, List.cons_append, List.forall_mem_cons, List.forall_mem_append]
    refine ⟨by simp +decide [clean.1], unbroken_bracedPieces clean.2.1, ?_⟩
    split
    · simp
    · exact List.forall_mem_cons.mpr ⟨by simp +decide, unbroken_bracedPieces clean.2.2⟩
  | select origin value cases fallback =>
    simp only [Stmt.verbatim, List.cons_append, List.forall_mem_cons, List.forall_mem_append]
      at clean
    simp only [Stmt.pieces, List.cons_append, List.forall_mem_cons, List.forall_mem_append]
    exact ⟨by simp +decide [clean.1], by simp +decide, ⟨unbroken_switchPieces clean.2.1,
      unbroken_casePieces (by decide) clean.2.2⟩, by simp +decide⟩
  | repeated origin condition body =>
    obtain ⟨first, inside⟩ := List.forall_mem_cons.mp clean
    exact List.forall_mem_cons.mpr ⟨by simp +decide [first], unbroken_bracedPieces inside⟩
  | forEach origin item collection body =>
    simp only [Stmt.verbatim, List.forall_mem_cons] at clean
    obtain ⟨first, second, inside⟩ := clean
    exact List.forall_mem_cons.mpr ⟨by simp +decide [first, second], unbroken_bracedPieces inside⟩
  | declare origin type name value =>
    cases type <;> cases value <;> simp_all +decide [Stmt.verbatim, Stmt.pieces]
  | leave origin value => cases value <;> simp_all +decide [Stmt.verbatim, Stmt.pieces]
  | effect | assign | comment => simp_all +decide [Stmt.verbatim, Stmt.pieces]

namespace Construct

variable {c : Construct} {s : Stmt} {levels offset : Nat}

theorem unbroken_pieces (c : Construct) (clean : ∀ text ∈ c.verbatim, Unbroken text) :
    ∀ p ∈ c.pieces, p.Unbroken := by
  cases c with
  | member m => simpa [pieces, verbatim] using clean
  | method m =>
    simp only [verbatim, List.cons_append, List.forall_mem_cons, List.forall_mem_append] at clean
    obtain ⟨returned, named, parameters, body⟩ := clean
    refine List.forall_mem_cons.mpr ⟨?_, unbroken_bracedPieces body⟩
    have declared : ∀ part ∈ m.parameters.map (fun p => p.type ++ " " ++ p.name), Unbroken part := by
      simp only [List.forall_mem_map, unbroken_append]
      intro p member
      have both : ∀ text ∈ [p.type, p.name], Unbroken text := fun text within =>
        parameters text (List.mem_flatMap.mpr ⟨p, member, within⟩)
      exact ⟨⟨both _ (by simp), by decide⟩, both _ (by simp)⟩
    simp +decide [MethodDecl.head, returned, named, unbroken_intercalate _ declared]
  | statement s => exact s.unbroken_pieces clean

/-- What a construct holds prints texts of the construct. -/
theorem Holds.unbroken (holds : c.Holds levels offset s)
    (clean : ∀ text ∈ c.verbatim, Unbroken text) : ∀ text ∈ s.verbatim, Unbroken text := by
  obtain @⟨before, levels, earlier, s, later, after, made⟩ := holds
  have inside := c.unbroken_pieces clean (.block levels (earlier ++ s :: later)) (by simp [made])
  simp only [Piece.Unbroken, Stmt.verbatimAll_eq, List.flatMap_append, List.flatMap_cons] at inside
  exact fun text member => inside text (by simp [member])

end Construct

end NodeScript
