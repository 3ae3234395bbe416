import NodeScript.Code.Unit

/-!
The text of generated code, line by line. Every line remembers the node that it comes from, so that
what a compiler says about a line can be told of a node.
-/

namespace NodeScript

/-- A line of text with the node that it comes from. -/
structure SourceLine where
  text : String
  origin : Option NodeId
deriving DecidableEq, Repr, Inhabited

/-- The text of a unit. -/
structure SourceText where
  lines : List SourceLine
deriving DecidableEq, Repr, Inhabited

/-- The lines, each with a line break behind it. A text without lines is one line break. -/
def SourceText.text (s : SourceText) : String :=
  "\n".intercalate (s.lines.map (·.text)) ++ "\n"

/-- The number of lines. -/
def SourceText.lineCount (s : SourceText) : Nat := s.lines.length

/-- The node of each line. -/
def SourceText.lineOrigins (s : SourceText) : List (Option NodeId) := s.lines.map (·.origin)

/-- The node of a line, counted from one. A line without one belongs to the nearest line before it
that has one, and a line past the end counts as the last. -/
def SourceText.originOfLine (s : SourceText) (line : Nat) : Option NodeId :=
  (s.lineOrigins.take line).reverse.findSome? id

/-- The lines of a node, counted from one. -/
def SourceText.linesOf (s : SourceText) (node : NodeId) : List Nat :=
  ((s.lineOrigins.zipIdx).filter (·.1 = some node)).map (·.2 + 1)

/-- A line at a depth of nesting; an empty line is not indented. -/
def sourceLine (depth : Nat) (origin : Option NodeId) (text : String) : SourceLine :=
  if text.isEmpty then ⟨"", origin⟩
  else ⟨String.ofList (List.replicate (4 * depth) ' ') ++ text, origin⟩

/-- Lines of a nested block between braces. -/
def bracedLines (depth : Nat) (origin : Option NodeId) (inside : List SourceLine) :
    List SourceLine :=
  sourceLine depth origin "\x7b" :: inside ++ [sourceLine depth origin "\x7d"]

/-- The line that ends a case unless its last statement leaves the method. -/
def breakLines (depth : Nat) (origin : Option NodeId) (body : List Stmt) : List SourceLine :=
  if (body.getLast?.map Stmt.isLeave).getD false then [] else [sourceLine depth origin "break;"]

mutual

/-- The lines of a statement. -/
def Stmt.lines (depth : Nat) : Stmt → List SourceLine
  | .effect origin value => [sourceLine depth origin (value.text ++ ";")]
  | .declare origin type name value =>
    let head := type.getD "var" ++ " " ++ name
    match value with
    | some value => [sourceLine depth origin (head ++ " = " ++ value.text ++ ";")]
    | none => [sourceLine depth origin (head ++ ";")]
  | .assign origin target value =>
    [sourceLine depth origin (target.text ++ " = " ++ value.text ++ ";")]
  | .branch origin condition thenBody elseBody =>
    sourceLine depth origin ("if (" ++ condition.text ++ ")")
      :: bracedLines depth origin (Stmt.blockLines (depth + 1) thenBody)
      ++ (if elseBody.isEmpty then []
        else sourceLine depth origin "else"
          :: bracedLines depth origin (Stmt.blockLines (depth + 1) elseBody))
  | .select origin value cases fallback =>
    sourceLine depth origin ("switch (" ++ value.text ++ ")")
      :: bracedLines depth origin (SwitchCase.lines (depth + 1) origin cases
        ++ sourceLine (depth + 1) origin "default:" :: Stmt.blockLines (depth + 2) fallback
        ++ breakLines (depth + 2) origin fallback)
  | .repeated origin condition body =>
    sourceLine depth origin ("while (" ++ condition.text ++ ")")
      :: bracedLines depth origin (Stmt.blockLines (depth + 1) body)
  | .forEach origin item collection body =>
    sourceLine depth origin ("foreach (var " ++ item ++ " in " ++ collection.text ++ ")")
      :: bracedLines depth origin (Stmt.blockLines (depth + 1) body)
  | .leave origin value =>
    match value with
    | some value => [sourceLine depth origin ("return " ++ value.text ++ ";")]
    | none => [sourceLine depth origin "return;"]
  | .comment origin text => [sourceLine depth origin ("// " ++ text)]

/-- The lines of statements. -/
def Stmt.blockLines (depth : Nat) : List Stmt → List SourceLine
  | [] => []
  | s :: rest => s.lines depth ++ Stmt.blockLines depth rest

/-- The lines of the cases of a selection, which belong to the node of the selection. -/
def SwitchCase.lines (depth : Nat) (origin : Option NodeId) : List SwitchCase → List SourceLine
  | [] => []
  | .mk label body :: rest =>
    sourceLine depth origin ("case " ++ intText label.toInt ++ ":")
      :: Stmt.blockLines (depth + 1) body ++ breakLines (depth + 1) origin body
      ++ SwitchCase.lines depth origin rest

end

/-- The line of a field. -/
def FieldDecl.line (depth : Nat) (f : FieldDecl) : SourceLine :=
  let head := f.visibility.keyword ++ " " ++ f.type ++ " " ++ f.name
  match f.value with
  | some value => sourceLine depth none (head ++ " = " ++ value.text ++ ";")
  | none => sourceLine depth none (head ++ ";")

/-- The lines of a member. -/
def MemberDecl.sourceLines (depth : Nat) (m : MemberDecl) : List SourceLine :=
  m.lines.map (sourceLine depth m.origin)

/-- The lines of a method. -/
def MethodDecl.lines (depth : Nat) (m : MethodDecl) : List SourceLine :=
  let parameters := ", ".intercalate (m.parameters.map fun p => p.type ++ " " ++ p.name)
  sourceLine depth m.origin
      (m.visibility.keyword ++ " " ++ m.returnType ++ " " ++ m.name ++ "(" ++ parameters ++ ")")
    :: bracedLines depth m.origin (Stmt.blockLines (depth + 1) m.body)

/-- Groups of lines with an empty line between them. -/
def separatedLines : List (List SourceLine) → List SourceLine
  | [] => []
  | [group] => group
  | group :: rest => group ++ ⟨"", none⟩ :: separatedLines rest

/-- The groups of lines inside a class: the fields, then each member, then each method. -/
def ClassDecl.groups (depth : Nat) (c : ClassDecl) : List (List SourceLine) :=
  (if c.fields.isEmpty then [] else [c.fields.map (FieldDecl.line depth)])
    ++ c.members.map (MemberDecl.sourceLines depth) ++ c.methods.map (MethodDecl.lines depth)

/-- The lines of a class. -/
def ClassDecl.lines (depth : Nat) (c : ClassDecl) : List SourceLine :=
  let head := match c.base with
    | some base => "public class " ++ c.name ++ " : " ++ base
    | none => "public class " ++ c.name
  sourceLine depth none head
    :: bracedLines depth none (separatedLines (c.groups (depth + 1)))

/-- The lines of the imported namespaces, with an empty line behind them. -/
def usingLines (usings : List String) : List SourceLine :=
  if usings.isEmpty then []
  else usings.map (fun name => sourceLine 0 none ("using " ++ name ++ ";")) ++ [⟨"", none⟩]

/-- The text of a unit. -/
def CodeUnit.source (unit : CodeUnit) : SourceText :=
  ⟨usingLines unit.usings ++
    match unit.namespaceName with
    | some name =>
      sourceLine 0 none ("namespace " ++ name) :: bracedLines 0 none (unit.classDecl.lines 1)
    | none => unit.classDecl.lines 0⟩

end NodeScript
