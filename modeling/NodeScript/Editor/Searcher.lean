import NodeScript.Editor.Action
import NodeScript.Graph.Basic
import NodeScript.Text.Lines
import NodeScript.Text.Lowercase

/-!
The library of nodes that an editor offers: templates by name, in the order of their registration.

The search for a node to make. While it is open an asynchronous action waits for the pick; a pick
makes the action finish with the node, and closing the search makes it finish with nothing.
-/

namespace NodeScript

/-! ### The library -/

/-- What a template is offered under. -/
inductive NodeCategory where
  | events | containers | flow | values | math | functions | custom
deriving DecidableEq, Repr, Inhabited

/-- A node that may be made. -/
structure NodeTemplate where
  /-- The name that the template is known by. -/
  id : String
  /-- The name that is shown. -/
  name : String
  category : NodeCategory
  description : String
  /-- What the nodes that are made do. -/
  kind : NodeKind
deriving DecidableEq, Inhabited

/-- A template without a description. -/
def NodeTemplate.plain (id name : String) (category : NodeCategory) (kind : NodeKind) :
    NodeTemplate :=
  ⟨id, name, category, "", kind⟩

/-- The template of the calls of a method. -/
def NodeTemplate.ofMethod (m : MethodSignature) : NodeTemplate :=
  .plain ("call_" ++ m.ref.text) m.ref.text .functions (.call (.plain m.ref))

/-- The template of the functions that an event starts. -/
def NodeTemplate.ofEvent (event : EventKind) : NodeTemplate :=
  { id := "event_" ++ lowercase event.methodName
    name := "On " ++ event.methodName
    category := .events
    description := "Entry point triggered by the engine"
    kind := .function (.onEvent event) }

/-- The template of a constant of a type. -/
def NodeTemplate.ofConstant (type : String) (value : Constant) : NodeTemplate :=
  .plain ("constant_" ++ type) (type ++ " Constant") .values (.constant value)

/-- A text with underscores in place of blanks. -/
def underscored (text : String) : String := text.map fun c => if c = ' ' then '_' else c

/-- The template of an operator with two operands. -/
def NodeTemplate.ofBinary (op : BinaryOperator) : NodeTemplate :=
  .plain ("operator_" ++ underscored (lowercase op.title)) op.title .math (.binary op)

/-- The template of an operator with one operand. -/
def NodeTemplate.ofUnary (op : UnaryOperator) : NodeTemplate :=
  .plain ("operator_" ++ lowercase op.name) op.name .math (.unary op)

/-- The templates that read and write a variable. -/
def VariableDecl.templates (v : VariableDecl) : List NodeTemplate :=
  [.plain ("get_" ++ v.name) ("Get " ++ v.name) .values (.getVariable v.id),
    .plain ("set_" ++ v.name) ("Set " ++ v.name) .values (.setVariable v.id)]

/-- The templates that read and write the variables of a graph. -/
def Graph.variableTemplates (g : Graph) : List NodeTemplate :=
  g.vars.values.flatMap VariableDecl.templates

/-- The templates of the kinds that every library has. -/
def standardTemplates : List NodeTemplate :=
  [.ofEvent .start, .ofEvent .update, .ofEvent .fixedUpdate,
    .plain "stack" "Stack" .containers .stack,
    .plain "loop_stack" "Loop Body" .containers .loopStack,
    ⟨"if", "If", .flow, "If/else branching", .branch⟩,
    .plain "switch" "Switch" .flow (.select [0, 1]),
    .plain "while" "While" .flow .repeated,
    .plain "for_each" "For Each" .flow .forEach,
    .plain "return" "Return" .flow .leave,
    .plain "this" "This" .values .this,
    .ofConstant "bool" (.bool false), .ofConstant "int" (.int 0),
    .ofConstant "float" (.float default), .ofConstant "string" (.string "")]
  ++ BinaryOperator.all.map .ofBinary
  ++ [.ofUnary .negate, .ofUnary .not]

/-- Templates by the names that they are known by. -/
structure NodeLibrary where
  templates : OrderedMap String NodeTemplate
deriving DecidableEq, Inhabited

namespace NodeLibrary

/-- The library without templates. -/
def empty : NodeLibrary := ⟨∅⟩

/-- Adds a template, or puts it in the place of the one of its name. -/
def register (l : NodeLibrary) (t : NodeTemplate) : NodeLibrary := ⟨l.templates.insert t.id t⟩

/-- Adds templates one after the other. -/
def registerAll (l : NodeLibrary) (templates : List NodeTemplate) : NodeLibrary :=
  templates.foldl register l

/-- The kinds that every library has, and the calls of methods. -/
def standard (methods : List MethodSignature) : NodeLibrary :=
  empty.registerAll (standardTemplates ++ methods.map .ofMethod)

/-- The template of a name. -/
def get? (l : NodeLibrary) (id : String) : Option NodeTemplate := l.templates.get? id

/-- All templates. -/
def all (l : NodeLibrary) : List NodeTemplate := l.templates.values

/-- The templates of a category. -/
def inCategory (l : NodeLibrary) (category : NodeCategory) : List NodeTemplate :=
  l.all.filter (·.category = category)

/-- The templates whose shown name contains a text, in whatever case it is written. -/
def search (l : NodeLibrary) (query : String) : List NodeTemplate :=
  let wanted := (lowercase query).toList
  l.all.filter fun t => occursIn wanted (lowercase t.name).toList

end NodeLibrary

/-! ### The search -/

/-- Where the node goes that is picked. -/
structure SearchTarget where
  position : Position
  place : Option StackPlace
deriving DecidableEq, Repr

/-- A node that stands free. -/
def SearchTarget.at (position : Position) : SearchTarget := ⟨position, none⟩

/-- A node in a stack. -/
def SearchTarget.inStack (place : StackPlace) : SearchTarget := ⟨default, some place⟩

/-- What a search is told. -/
inductive SearchMessage where
  | picked (template : String)
  | closed
deriving DecidableEq, Repr

/-- An open search: what is offered, and the token of the action that waits for the pick. -/
structure Searcher where
  library : NodeLibrary
  token : CancelToken

/-- The store of an editor. -/
abbrev EditorStore := Store EditorState EditorAction SearchMessage

/-- What is offered for a graph: a library and the variables of the graph. -/
def NodeLibrary.offeredFor (l : NodeLibrary) (g : Graph) : NodeLibrary :=
  l.registerAll g.variableTemplates

/-- Waits for a pick. A search that was told something finishes by that even when it is cancelled.
-/
def awaitPick (library : NodeLibrary) (target : SearchTarget) :
    AsyncAction SearchMessage EditorAction := fun o =>
  match o.messages.head? with
  | some (.picked id) =>
    some ((library.get? id).map fun t => .createNode t.kind target.position target.place)
  | some .closed => some none
  | none => if o.cancelled then some none else none

namespace Searcher

/-- Opens a search. -/
def opened (store : EditorStore) (library : NodeLibrary) (target : SearchTarget) :
    Except StoreError Searcher × EditorStore :=
  let offered := library.offeredFor store.state.graph
  match store.start (awaitPick offered target) with
  | (.ok token, store) => (.ok ⟨offered, token⟩, store)
  | (.error e, store) => (.error e, store)

/-- The templates that a query finds. -/
def results (s : Searcher) (query : String) : List NodeTemplate := s.library.search query

/-- Whether the search has been cancelled. -/
def isCancelled (s : Searcher) (store : EditorStore) : Bool := store.isCancelled s.token

/-- Closes a search without a pick. -/
def close (s : Searcher) (store : EditorStore) : EditorStore := store.tell s.token .closed

/-- Picks a template and closes the search. Says whether there is such a template and the search was
still waiting. -/
def pick (s : Searcher) (store : EditorStore) (template : String) : Bool × EditorStore :=
  if (s.library.get? template).isNone then (false, s.close store)
  else (store.isPending s.token, store.tell s.token (.picked template))

end Searcher

end NodeScript
