import NodeScript.Code.Source
import NodeScript.OrderedMap
import NodeScript.Translation.Diagnostics
import NodeScript.Uuid

/-!
The record of traced runs. Generated code reports that it runs by the name of its graph and a
number, and the record knows the node of each number.

What is gathered while a graph is translated: the fields, members and methods of its class, the
subscriptions to events, and the errors.
-/

namespace NodeScript

/-! ### Traced runs -/

/-- A node that ran in a frame. -/
structure TraceHit where
  node : NodeId
  frame : Nat
deriving DecidableEq, Repr, Inhabited

/-- The nodes that have numbers, and the nodes that ran, by the names of their graphs. -/
structure TraceRecord where
  indices : OrderedMap String (List NodeId)
  hits : OrderedMap String (List TraceHit)
deriving DecidableEq, Inhabited

namespace TraceRecord

/-- Nothing is recorded. -/
def empty : TraceRecord := ⟨∅, ∅⟩

/-- The nodes of a graph in the order of their numbers. -/
def nodesOf (r : TraceRecord) (graph : String) : List NodeId := (r.indices.get? graph).getD []

/-- What ran of a graph, earlier runs first. -/
def hitsOf (r : TraceRecord) (graph : String) : List TraceHit := (r.hits.get? graph).getD []

/-- Forgets the numbers of a graph and what ran of it. -/
def beginGraph (r : TraceRecord) (graph : String) : TraceRecord :=
  ⟨r.indices.insert graph [], r.hits.erase graph⟩

/-- The number of a node, which gets the next one if it has none. -/
def register (r : TraceRecord) (graph : String) (node : NodeId) : Nat × TraceRecord :=
  let nodes := r.nodesOf graph
  match nodes.findIdx? (· = node) with
  | some i => (i, r)
  | none => (nodes.length, { r with indices := r.indices.insert graph (nodes ++ [node]) })

/-- The node of a number. -/
def nodeFor? (r : TraceRecord) (graph : String) (index : Nat) : Option NodeId :=
  (r.nodesOf graph)[index]?

/-- Records that the node of a number ran, and returns it. Numbers without a node are ignored. -/
def hit (r : TraceRecord) (graph : String) (index frame : Nat) : Option NodeId × TraceRecord :=
  match r.nodeFor? graph index with
  | none => (none, r)
  | some node =>
    (some node, { r with hits := r.hits.insert graph (r.hitsOf graph ++ [⟨node, frame⟩]) })

/-- The nodes that ran in a frame. -/
def hitsInFrame (r : TraceRecord) (graph : String) (frame : Nat) : List NodeId :=
  ((r.hitsOf graph).filter (·.frame = frame)).map (·.node)

/-- Forgets what ran, and keeps the numbers. -/
def clearHits (r : TraceRecord) : TraceRecord := { r with hits := ∅ }

end TraceRecord

/-! ### What is gathered -/

/-- How a graph is translated. -/
structure TranslationOptions where
  namespaceName : Option String
  /-- The name of the class, in place of that of the graph. -/
  className : Option String
  /-- The base class, in place of that of the graph. -/
  baseClass : Option String
  /-- Namespaces to import beside those of the graph. -/
  usings : List String
  /-- The method that subscribes to events. -/
  registrationMethod : String
  /-- Whether every statement reports that it runs. -/
  trace : Bool
deriving DecidableEq, Repr

/-- Nothing is replaced, events are subscribed to on start, and nothing is traced. -/
def TranslationOptions.standard : TranslationOptions :=
  ⟨none, none, none, [], "Start", false⟩

instance : Inhabited TranslationOptions := ⟨.standard⟩

/-- What has been gathered. -/
structure TranslationContext where
  fields : List FieldDecl
  members : List MemberDecl
  methods : OrderedMap String MethodDecl
  registrations : OrderedMap String Stmt
  errors : List CompilerError
deriving Inhabited

namespace TranslationContext

/-- Nothing yet. -/
def empty : TranslationContext := ⟨[], [], ∅, ∅, []⟩

/-- Whether there is a field of a name. -/
def hasField (c : TranslationContext) (name : String) : Bool := c.fields.any (·.name = name)

/-- Adds a field unless there is one of its name, and says whether it was added. -/
def addField (c : TranslationContext) (f : FieldDecl) : Bool × TranslationContext :=
  if c.hasField f.name then (false, c) else (true, { c with fields := c.fields ++ [f] })

/-- Adds a member. -/
def addMember (c : TranslationContext) (m : MemberDecl) : TranslationContext :=
  { c with members := c.members ++ [m] }

/-- The error of a method that is there with other parameters or another result. -/
def redeclared (m : MethodDecl) : CompilerError :=
  .translation m.origin s!"Method `{m.name}` is declared again with a different signature"

/-- Adds a method. To a method of the same name and signature its statements are appended. -/
def mergeMethod (c : TranslationContext) (m : MethodDecl) :
    Except CompilerError TranslationContext :=
  match c.methods.get? m.name with
  | none => .ok { c with methods := c.methods.insert m.name m }
  | some present =>
    if present.sameSignature m then
      .ok { c with
        methods := c.methods.insert m.name { present with body := present.body ++ m.body } }
    else .error (redeclared m)

/-- Adds a subscription unless there is one under its key. -/
def addRegistration (c : TranslationContext) (key : String) (s : Stmt) : TranslationContext :=
  if c.registrations.contains key then c
  else { c with registrations := c.registrations.insert key s }

/-- A method without statements for subscriptions. -/
def registrationDecl (name : String) : MethodDecl := ⟨.hidden, "void", name, [], [], none⟩

/-- Puts the subscriptions in front of the statements of a method, which is made if it is missing.
-/
def flushRegistrations (c : TranslationContext) (name : String) : TranslationContext :=
  if c.registrations.isEmpty then c
  else
    let m := (c.methods.get? name).getD (registrationDecl name)
    { c with
      methods := c.methods.insert name { m with body := c.registrations.values ++ m.body }
      registrations := ∅ }

/-- Records an error. -/
def report (c : TranslationContext) (e : CompilerError) : TranslationContext :=
  { c with errors := c.errors ++ [e] }

/-- Records an error of a node. -/
def reportAt (c : TranslationContext) (node : NodeId) (message : String) : TranslationContext :=
  c.report (.translation (some node) message)

end TranslationContext

end NodeScript
