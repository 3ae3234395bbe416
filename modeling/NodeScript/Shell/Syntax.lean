import NodeScript.Text.Utf8

/-!
Scripts of the command language that compilers are run with: words with what is put into them,
redirections and commands. All text of a script is text of bytes, each of which is a character by
its number, so that a script can also make text that encodes nothing.
-/

namespace NodeScript.Shell

/-- Text of bytes. -/
abbrev Bytes := List Char

/-- The bytes of a text. -/
def bytesOf (text : String) : Bytes := (utf8Bytes text.toList).map fun b => Char.ofNat b.toNat

/-- The text of bytes; what encodes nothing is replaced. -/
def textOf (bytes : Bytes) : String :=
  String.ofList (decodeUtf8 (bytes.map fun c => UInt8.ofNat c.toNat))

/-- What is done with the value of a parameter. Where it matters, `empty` says whether an empty
value counts as missing. -/
inductive ParameterUse where
  | value
  | length
  | orElse (empty : Bool)
  | orAssign (empty : Bool)
  | orFail (empty : Bool)
  | instead (empty : Bool)
  | withoutStart (longest : Bool)
  | withoutEnd (longest : Bool)
deriving DecidableEq, Repr, Inhabited

/-- What is put into a word when a script runs. What belongs to it is kept as it is written. -/
inductive Expansion where
  | parameter (name : Bytes) (use : ParameterUse) (operand : Bytes)
  | command (script : Bytes)
  | arithmetic (expression : Bytes)
deriving DecidableEq, Repr, Inhabited

/-- A piece of a word. -/
inductive Piece where
  | literal (text : Bytes) (quoted : Bool)
  | expansion (content : Expansion) (quoted : Bool)
deriving DecidableEq, Repr, Inhabited

/-- A word of a script. -/
abbrev Word := List Piece

/-- The text of a word in which nothing is quoted or put in. -/
def plainText? : Word → Option Bytes
  | [.literal text false] => some text
  | _ => none

/-- What a descriptor is made to lead to. -/
inductive RedirectTarget where
  | input (path : Word)
  | output (path : Word)
  | append (path : Word)
  | duplicate (descriptor : Word)
  | text (content : Word)
deriving DecidableEq, Repr, Inhabited

/-- A redirection. -/
structure Redirect where
  descriptor : Nat
  target : RedirectTarget
deriving DecidableEq, Repr, Inhabited

/-- A command of a script. -/
inductive Command where
  /-- A program or function with its arguments, with variables that are set in front of it, and the
  line where it stands. -/
  | simple (line : Nat) (settings : List (Bytes × Word)) (words : List Word)
  | redirected (command : Command) (redirects : List Redirect)
  | pipeline (commands : List Command)
  | negated (command : Command)
  | both (first second : Command)
  | either (first second : Command)
  | sequence (commands : List Command)
  | subshell (body : Command)
  | branch (condition thenDo : Command) (elseDo : Option Command)
  /-- Runs the body as long as the condition ends well, or as long as it does not. -/
  | loop (untilWell : Bool) (condition body : Command)
  /-- Runs the body for every word, or for every argument of the script. -/
  | forEach (name : Bytes) (words : Option (List Word)) (body : Command)
  | select (subject : Word) (cases : List (List Word × Command))
  | define (name : Bytes) (body : Command)
deriving Inhabited

end NodeScript.Shell
