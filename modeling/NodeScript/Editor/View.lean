import NodeScript.Graph.Basic

/-!
What is shown of a graph: visual elements, each with the element of the graph that it stands for. A
factory draws them, and a view keeps them and remembers what was done to it.
-/

namespace NodeScript

/-- An element of a graph that is shown. -/
inductive ElementRef where
  | node (id : NodeId)
  | edge (id : EdgeId)
deriving DecidableEq, Repr, Inhabited

/-- Whether an element is in a graph. -/
def ElementRef.existsIn (e : ElementRef) (g : Graph) : Bool :=
  match e with
  | node id => (g.node? id).isSome
  | edge id => (g.edge? id).isSome

/-- How an element looks. -/
structure Appearance where
  /-- The classes by which the element is styled. -/
  style : String
  label : String
deriving DecidableEq, Repr, Inhabited

/-- A visual element. -/
structure Visual where
  appearance : Appearance
  /-- The element that it is shown in. -/
  parent : Option ElementRef
deriving DecidableEq, Repr, Inhabited

/-- How the nodes of kinds are drawn, by the names of the kinds. -/
structure NodeArtist where
  draw : OrderedMap String (Graph → Node → Appearance)

namespace NodeArtist

/-- Draws a node with its title. -/
def titled (style : String) : Graph → Node → Appearance := fun _ n => ⟨style, n.title⟩

/-- Draws a constant with its value. -/
def valued : Graph → Node → Appearance := fun _ n =>
  match n.kind with
  | .constant value => ⟨"constant", value.label⟩
  | _ => ⟨"constant", n.title⟩

/-- Draws nothing. -/
def empty : NodeArtist := ⟨∅⟩

/-- Draws the nodes of all kinds but those of extensions. -/
def standard : NodeArtist where
  draw := .ofList (
    ["stack", "loop_stack", "function"].map (fun kind => (kind, titled "stack"))
      ++ ["set_variable", "function_call", "while", "for_each", "return"].map
        (fun kind => (kind, titled "statement"))
      ++ ["if", "switch"].map (fun kind => (kind, titled "branch"))
      ++ ["get_variable", "binary_operator", "unary_operator", "this"].map
        (fun kind => (kind, titled "expression"))
      ++ [("constant", valued)])

/-- Lets the nodes of a kind be drawn in a way. -/
def register (a : NodeArtist) (typeId : String) (draw : Graph → Node → Appearance) : NodeArtist :=
  ⟨a.draw.insert typeId draw⟩

/-- Whether the nodes of a kind can be drawn. -/
def draws (a : NodeArtist) (typeId : String) : Bool := a.draw.contains typeId

/-- The look of a node, if nodes of its kind can be drawn. -/
def drawNode? (a : NodeArtist) (g : Graph) (n : Node) : Option Appearance :=
  (a.draw.get? n.kind.typeId).map fun draw =>
    let look := draw g n
    if n.collapsed then { look with style := look.style ++ " collapsed" } else look

/-- The end of an edge by the title of its node and the name of its port. -/
def endLabel (g : Graph) (p : PortRef) : String :=
  match g.node? p.node with
  | none => "?"
  | some n =>
    match n.port? p.port with
    | some port => s!"{n.title}.{port.name}"
    | none => "?"

/-- The look of an edge. -/
def drawEdge (g : Graph) (e : Edge) : Appearance :=
  ⟨"edge", s!"{endLabel g e.output} -> {endLabel g e.input}"⟩

end NodeArtist

/-- Something done to a view. -/
inductive ViewOperation where
  | add (element : ElementRef)
  | remove (element : ElementRef)
deriving DecidableEq, Repr

/-- A view that keeps its visual elements in memory, with what was done to it. -/
structure View where
  visuals : OrderedMap ElementRef Visual
  operations : List ViewOperation
deriving DecidableEq, Inhabited

/-- A table gets smaller by as many entries as a filter takes out of it. -/
theorem OrderedMap.size_filter_add_length {κ ν : Type} (m : OrderedMap κ ν) (drop : κ → ν → Bool) :
    (m.filter fun k v => !drop k v).size + (m.entries.filter fun e => drop e.1 e.2).length
      = m.size := by
  obtain ⟨entries, nodup⟩ := m
  simp only [OrderedMap.filter, OrderedMap.size]
  clear nodup
  induction entries with
  | nil => rfl
  | cons e rest ih =>
    by_cases dropped : drop e.1 e.2 = true
    · simp [dropped]; omega
    · simp [dropped]; omega

namespace View

/-- The view without elements. -/
def empty : View := ⟨∅, []⟩

/-- The visual of an element. -/
def get? (v : View) (element : ElementRef) : Option Visual := v.visuals.get? element

/-- Whether an element is shown. -/
def shows (v : View) (element : ElementRef) : Bool := v.visuals.contains element

/-- The elements that are shown in another, in the order of the view. -/
def childrenOf (visuals : OrderedMap ElementRef Visual) (parent : ElementRef) : List ElementRef :=
  (visuals.entries.filter fun e => e.2.parent = some parent).map Prod.fst

/-- Shows an element, in place of its former visual if it is shown already. -/
def add (v : View) (element : ElementRef) (visual : Visual) : View :=
  ⟨v.visuals.insert element visual, v.operations ++ [.add element]⟩

/-- Takes out what is shown in elements that are gone, and in turn what is shown in that. Every
element that is taken out makes the table smaller. -/
def clearBelow (visuals : OrderedMap ElementRef Visual) :
    List ElementRef → OrderedMap ElementRef Visual
  | [] => visuals
  | gone :: rest =>
    clearBelow (visuals.filter fun _ visual => !(visual.parent = some gone))
      (rest ++ childrenOf visuals gone)
termination_by doomed => visuals.size + doomed.length
decreasing_by
  have shrinks := visuals.size_filter_add_length fun _ visual => decide (visual.parent = some gone)
  simp only [List.length_append, List.length_cons, childrenOf, List.length_map]
  omega

/-- Takes out an element with everything that is shown in it, and says whether it was shown. -/
def remove (v : View) (element : ElementRef) : Bool × View :=
  if v.shows element then
    (true, ⟨clearBelow (v.visuals.erase element) [element], v.operations ++ [.remove element]⟩)
  else (false, v)

/-- Forgets what was done to the view. -/
def forgetOperations (v : View) : View := { v with operations := [] }

end View

end NodeScript
