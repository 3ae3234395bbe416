import NodeScript.Text.Alphanumeric
import NodeScript.Text.Lines
import NodeScript.Typing.TypeExpr

/-!
The text of types. A type is written as its name, its arguments in angle brackets, and a pair of
square brackets for each array around it; white space may stand between the parts. The reader stops
at the first character that no type text could have there, and reports the rest of the text from
that character on.

Type handles: what a graph stores in place of a type. A handle is the text of a type or one of three
reserved words, for a type that is not known yet, for the flow of execution, and for the class that
is being generated.
-/

namespace NodeScript

/-! ### Texts of types -/

mutual

/-- The text of a type; an array is its element type with square brackets. -/
def TypeExpr.textChars : TypeExpr → List Char
  | .var name => name.toList
  | .named name [] => name.toList
  | .named name [arg] =>
    if name = arrayName then arg.textChars ++ ['[', ']']
    else name.toList ++ '<' :: arg.textChars ++ ['>']
  | .named name (arg :: more) =>
    name.toList ++ '<' :: arg.textChars ++ TypeExpr.moreTextChars more ++ ['>']

/-- The text of further arguments, each after a comma. -/
def TypeExpr.moreTextChars : List TypeExpr → List Char
  | [] => []
  | t :: rest => ',' :: ' ' :: t.textChars ++ TypeExpr.moreTextChars rest

end

/-- The text of a type. -/
def TypeExpr.text (t : TypeExpr) : String := String.ofList t.textChars

mutual

/-- The text of a type with its parts shown: variables carry a mark and arrays are not shortened. -/
def TypeExpr.structure : TypeExpr → String
  | .var name => "'" ++ name
  | .named name [] => name
  | .named name (arg :: more) =>
    name ++ "<" ++ arg.structure ++ TypeExpr.moreStructure more ++ ">"

/-- Further arguments, each after a comma. -/
def TypeExpr.moreStructure : List TypeExpr → String
  | [] => ""
  | t :: rest => ", " ++ t.structure ++ TypeExpr.moreStructure rest

end

/-- Why a text is no type. -/
inductive TypeTextError where
  /-- The text ended where more was needed. -/
  | unexpectedEnd (input : String)
  /-- A character stands, at this byte, where none of its kind may. -/
  | unexpected (input : String) (found : Char) (position : Nat)
deriving DecidableEq, Repr

/-- The wording of the error. -/
def TypeTextError.message : TypeTextError → String
  | .unexpectedEnd input => s!"Unexpected end of type `{input}`"
  | .unexpected input found position => s!"Unexpected `{found}` at {position} in type `{input}`"

instance : ToString TypeTextError := ⟨TypeTextError.message⟩

/-- The characters of a type name. -/
def isTypeNameChar (c : Char) : Bool := isAlphanumeric c || c == '_' || c == '.'

/-- A part that was read from `text`, and the rest, which is shorter. -/
abbrev ReadFrom (α : Type) (text : List Char) := { r : α × List Char // r.2.length < text.length }

/-- The array brackets behind an element type, and the rest of the text. -/
def readBrackets (element : TypeExpr) (text : List Char) :
    Except (List Char) { r : TypeExpr × List Char // r.2.length ≤ text.length } :=
  match h : skipBlank text with
  | '[' :: more =>
    match g : skipBlank more with
    | ']' :: rest =>
      have shorter : rest.length < text.length := by
        have first := length_skipBlank_le text
        have second := length_skipBlank_le more
        rw [h] at first
        rw [g] at second
        simp only [List.length_cons] at first second
        omega
      match readBrackets (.array element) rest with
      | .ok ⟨r, le⟩ => .ok ⟨r, by omega⟩
      | .error stuck => .error stuck
    | stuck => .error stuck
  | rest => .ok ⟨(element, rest), by rw [← h]; exact length_skipBlank_le text⟩
termination_by text.length

mutual

/-- Reads a type at the start of the text. On failure the rest of the text is returned, from the
character on that does not fit. -/
def readType (text : List Char) : Except (List Char) (ReadFrom TypeExpr text) :=
  let start := skipBlank text
  have startLe : start.length ≤ text.length := length_skipBlank_le text
  let name := start.takeWhile isTypeNameChar
  let afterName := start.dropWhile isTypeNameChar
  have split : name.length + afterName.length = start.length := by
    rw [← List.length_append, List.takeWhile_append_dropWhile]
  if empty : name = [] then .error afterName
  else
    have nameLong : 0 < name.length := List.length_pos_iff.mpr empty
    match h : skipBlank afterName with
    | '<' :: inside =>
      have insideShort : inside.length < afterName.length := by
        have le := length_skipBlank_le afterName
        rw [h] at le
        simp only [List.length_cons] at le
        omega
      match readArgs inside with
      | .error stuck => .error stuck
      | .ok ⟨(args, rest), restShort⟩ =>
        match readBrackets (.named (String.ofList name) args) rest with
        | .error stuck => .error stuck
        | .ok ⟨r, le⟩ => .ok ⟨r, by simp only at restShort; omega⟩
    | rest =>
      have restShort : rest.length ≤ afterName.length := by
        rw [← h]; exact length_skipBlank_le afterName
      match readBrackets (.named (String.ofList name) []) rest with
      | .error stuck => .error stuck
      | .ok ⟨r, le⟩ => .ok ⟨r, by omega⟩
termination_by 2 * text.length
decreasing_by all_goals omega

/-- Reads arguments up to and with the closing bracket. -/
def readArgs (text : List Char) : Except (List Char) (ReadFrom (List TypeExpr) text) :=
  match readType text with
  | .error stuck => .error stuck
  | .ok ⟨(arg, afterArg), argShort⟩ =>
    match h : skipBlank afterArg with
    | ',' :: more =>
      have moreShort : more.length < text.length := by
        have le := length_skipBlank_le afterArg
        rw [h] at le
        simp only [List.length_cons] at le argShort
        omega
      match readArgs more with
      | .error stuck => .error stuck
      | .ok ⟨(args, rest), restShort⟩ =>
        .ok ⟨(arg :: args, rest), by simp only at restShort ⊢; omega⟩
    | '>' :: rest =>
      .ok ⟨([arg], rest), by
        have le := length_skipBlank_le afterArg
        rw [h] at le
        simp only [List.length_cons] at le argShort ⊢
        omega⟩
    | stuck => .error stuck
termination_by 2 * text.length + 1
decreasing_by all_goals omega

end

/-- The number of bytes of a text. -/
def byteLength : List Char → Nat
  | [] => 0
  | c :: rest => c.utf8Size + byteLength rest

/-- The error for a reader of `input` that got stuck with `rest` still to read. -/
def TypeTextError.stuckAt (input : String) (rest : List Char) : TypeTextError :=
  match rest with
  | [] => .unexpectedEnd input
  | c :: _ => .unexpected input c (byteLength input.toList - byteLength rest)

/-- Reads a text that is a type as a whole. -/
def TypeExpr.parse (input : String) : Except TypeTextError TypeExpr :=
  match readType input.toList with
  | .error rest => .error (.stuckAt input rest)
  | .ok ⟨(t, rest), _⟩ =>
    match skipBlank rest with
    | [] => .ok t
    | stuck => .error (.stuckAt input stuck)

/-- Reads a type in which some bare names denote variables. -/
def TypeExpr.parseWithParams (input : String) (params : List String) :
    Except TypeTextError TypeExpr :=
  (TypeExpr.parse input).map (·.bindParams params)

/-- The type that a text denotes, or the bare name if it denotes none. -/
def TypeExpr.ofText (input : String) : TypeExpr :=
  match TypeExpr.parse input with
  | .ok t => t
  | .error _ => .plain input

/-! ### Handles -/

/-- The text that stands for a type. -/
structure TypeHandle where
  text : String
deriving DecidableEq, Repr

/-- The type is not known yet. -/
def TypeHandle.unknown : TypeHandle := ⟨"__UNKNOWN"⟩

/-- The flow of execution. -/
def TypeHandle.execution : TypeHandle := ⟨"__EXECUTION"⟩

/-- The class that is being generated. -/
def TypeHandle.thisType : TypeHandle := ⟨"__THIS"⟩

/-- A handle is unknown until it is set. -/
instance : Inhabited TypeHandle := ⟨.unknown⟩

instance : ToString TypeHandle := ⟨TypeHandle.text⟩

/-- The handle of truth values. -/
def TypeHandle.bool : TypeHandle := ⟨"bool"⟩

/-- The handle of integers. -/
def TypeHandle.int : TypeHandle := ⟨"int"⟩

/-- The handle of 32-bit numbers. -/
def TypeHandle.float : TypeHandle := ⟨"float"⟩

/-- The handle of 64-bit numbers. -/
def TypeHandle.double : TypeHandle := ⟨"double"⟩

/-- The handle of text. -/
def TypeHandle.string : TypeHandle := ⟨"string"⟩

/-- The handle of the result of methods that return nothing. -/
def TypeHandle.void : TypeHandle := ⟨"void"⟩

/-- The handle of any object. -/
def TypeHandle.object : TypeHandle := ⟨"object"⟩

/-- The handle of a type. -/
def TypeHandle.of (t : TypeExpr) : TypeHandle := ⟨t.text⟩

/-- Whether the handle is a reserved word. -/
def TypeHandle.isReserved (h : TypeHandle) : Bool :=
  h = .unknown || h = .execution || h = .thisType

/-- The type that a handle denotes, if it is not reserved and its text is a type. -/
def TypeHandle.toType? (h : TypeHandle) : Option TypeExpr :=
  if h.isReserved then none else (TypeExpr.parse h.text).toOption

end NodeScript
