import NodeScript.Numeric.Decimal
import NodeScript.Text.Lines
import NodeScript.Uuid

/-!
Errors in generated code: what a compiler reports about a text, and what is told of the nodes of a
graph.
-/

namespace NodeScript

/-- What a compiler reports, with the line it is about. -/
structure Diagnostic where
  message : String
  line : Option Nat
deriving DecidableEq, Repr, Inhabited

/-- Where an error was found. -/
inductive CompileStage where
  | translation | compilation
deriving DecidableEq, Repr, Inhabited

/-- An error with the node that it belongs to. -/
structure CompilerError where
  message : String
  node : Option NodeId
  stage : CompileStage
  /-- The line of the generated text, for what a compiler reports. -/
  line : Option Nat
deriving DecidableEq, Repr, Inhabited

/-- An error found while code was generated. -/
def CompilerError.translation (node : Option NodeId) (message : String) : CompilerError :=
  ⟨message, node, .translation, none⟩

/-- Line numbers that can be read are below this bound. -/
def lineBound : Nat := UInt64.size

/-- A line number at the start of a text, if there is one that can be read. -/
def leadingLine? (text : List Char) : Option Nat :=
  let digits := text.takeWhile Char.isDigit
  if digits.isEmpty then none
  else
    let number := digitsValue digits
    if number < lineBound then some number else none

/-- The line number in the first parentheses of a line, and the text behind them. -/
def location? (line : List Char) : Option (Nat × List Char) := do
  let (_, inside) ← cutAt? '(' line
  let (position, after) ← cutAt? ')' inside
  let number ← leadingLine? position
  return (number, after)

/-- Whether a line reports an error. -/
def reportsError (line : List Char) : Bool :=
  occursIn "): error ".toList line || occursIn "error CS".toList line

/-- The diagnostic of a line that reports an error. -/
def Diagnostic.ofLine (line : List Char) : Diagnostic :=
  match location? line with
  | some (number, after) =>
    ⟨String.ofList (trimBlank (after.dropWhile (· == ':'))), some number⟩
  | none => ⟨String.ofList (trimBlank line), none⟩

/-- The diagnostics in the output of a compiler; lines that report no error are passed over. -/
def parseDiagnostics (output : String) : List Diagnostic :=
  ((textLines output.toList).filter reportsError).map Diagnostic.ofLine

end NodeScript
