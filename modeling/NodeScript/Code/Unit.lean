import NodeScript.Code.Expr
import NodeScript.Uuid

/-!
Generated code as a tree: statements, methods, the class of a graph and the unit around it. Every
statement knows the node that it was made from.
-/

namespace NodeScript

mutual

/-- A statement, with the node that it comes from. -/
inductive Stmt where
  /-- An expression that is evaluated for what it does. -/
  | effect (origin : Option NodeId) (value : Expr)
  /-- A local variable; without a type its type is that of the value. -/
  | declare (origin : Option NodeId) (type : Option String) (name : String) (value : Option Expr)
  | assign (origin : Option NodeId) (target value : Expr)
  | branch (origin : Option NodeId) (condition : Expr) (thenBody elseBody : List Stmt)
  | select (origin : Option NodeId) (value : Expr) (cases : List SwitchCase) (fallback : List Stmt)
  /-- A body that is repeated while a condition holds. -/
  | repeated (origin : Option NodeId) (condition : Expr) (body : List Stmt)
  /-- A body that runs once for each item of a collection. -/
  | forEach (origin : Option NodeId) (item : String) (collection : Expr) (body : List Stmt)
  /-- The end of the method. -/
  | leave (origin : Option NodeId) (value : Option Expr)
  | comment (origin : Option NodeId) (text : String)

/-- The statements for one value of a selection. -/
inductive SwitchCase where
  | mk (label : Int64) (body : List Stmt)

end

instance : Inhabited Stmt := ⟨.comment none ""⟩

/-- The node that a statement comes from. -/
def Stmt.origin : Stmt → Option NodeId
  | .effect origin _ | .declare origin _ _ _ | .assign origin _ _ | .branch origin _ _ _
  | .select origin _ _ _ | .repeated origin _ _ | .forEach origin _ _ _ | .leave origin _
  | .comment origin _ => origin

/-- Whether a statement ends the method. -/
def Stmt.isLeave : Stmt → Bool
  | .leave _ _ => true
  | _ => false

/-- Who may see a member. -/
inductive Visibility where
  | visible | hidden
deriving DecidableEq, Repr, Inhabited

/-- The word for a visibility in generated code. -/
def Visibility.keyword : Visibility → String
  | .visible => "public"
  | .hidden => "private"

/-- A field of the class. -/
structure FieldDecl where
  visibility : Visibility
  type : String
  name : String
  value : Option Expr
deriving Repr, Inhabited

/-- Lines of the class that are taken over as they are. -/
structure MemberDecl where
  lines : List String
  origin : Option NodeId
deriving DecidableEq, Repr, Inhabited

/-- A parameter of a method. -/
structure ParameterDecl where
  type : String
  name : String
deriving DecidableEq, Repr, Inhabited

/-- A method of the class. -/
structure MethodDecl where
  visibility : Visibility
  returnType : String
  name : String
  parameters : List ParameterDecl
  body : List Stmt
  origin : Option NodeId
deriving Inhabited

/-- Whether two methods can share one declaration. -/
def MethodDecl.sameSignature (a b : MethodDecl) : Bool :=
  a.returnType = b.returnType && a.parameters = b.parameters

/-- The class of a graph. -/
structure ClassDecl where
  name : String
  base : Option String
  fields : List FieldDecl
  members : List MemberDecl
  methods : List MethodDecl
deriving Inhabited

/-- The first method of a name. -/
def ClassDecl.method? (c : ClassDecl) (name : String) : Option MethodDecl :=
  c.methods.find? (·.name = name)

/-- The code of a graph. -/
structure CodeUnit where
  usings : List String
  namespaceName : Option String
  classDecl : ClassDecl
deriving Inhabited

end NodeScript
