import NodeScript.Graph.Reach

/-!
The ports of a node put in place. A port that had the same name and direction before keeps its
identity, and with it its edges; the edges of ports that are no longer there go with them.
-/

namespace NodeScript

/-- Whether two 32-bit numbers are equal as numbers. -/
def Single.equals (a b : Single) : Bool :=
  match a.read, b.read with
  | .nan _, _ => false
  | _, .nan _ => false
  | .finite _ x, .finite _ y => a = b || (x.significand = 0 && y.significand = 0)
  | _, _ => a = b

/-- Whether two 64-bit numbers are equal as numbers. -/
def Double.equals (a b : Double) : Bool :=
  match a.read, b.read with
  | .nan _, _ => false
  | _, .nan _ => false
  | .finite _ x, .finite _ y => a = b || (x.significand = 0 && y.significand = 0)
  | _, _ => a = b

/-- Whether two constants are equal, numbers being compared as numbers. -/
def Constant.equals : Constant → Constant → Bool
  | .float a, .float b => a.equals b
  | .double a, .double b => a.equals b
  | a, b => a = b

/-- The value that an input of a type has by itself. -/
def TypeOracle.defaultConstant (oracle : TypeOracle) (handle : TypeHandle) : Constant :=
  if handle = .unknown then .int 0
  else match oracle.resolve handle with
    | some t => oracle.defaultValue t
    | none => .defaultOf handle

/-- Takes an item out of a list; the last item moves to its place. -/
def takeOut {α : Type} (items : List α) (i : Nat) : List α :=
  match items.getLast? with
  | some last => (items.set i last).dropLast
  | none => []

/-- The port for a specification: a former port of its direction and name, or else a new one. The
former ports that are left and the supply are returned too. -/
def PortSpec.realize (spec : PortSpec) (node : NodeId) (former : List Port) (supply : IdSupply) :
    Port × List Port × IdSupply :=
  match former.findIdx? fun p => p.name = spec.name && p.direction = spec.direction with
  | some i =>
    match former[i]? with
    | some p => ({ p with kind := spec.kind, type := spec.type }, takeOut former i, supply)
    | none => (spec.toPort default node, former, supply)
  | none =>
    let (id, supply) := supply.fresh
    (spec.toPort ⟨id⟩ node, former, supply)

/-- The ports for specifications, the former ports that are left, and the supply. -/
def realizePorts (node : NodeId) : List PortSpec → List Port → IdSupply →
    List Port × List Port × IdSupply
  | [], former, supply => ([], former, supply)
  | spec :: rest, former, supply =>
    let (p, former, supply) := spec.realize node former supply
    let (ports, former, supply) := realizePorts node rest former supply
    (p :: ports, former, supply)

/-- The value of an input: the one it had, if that still fits, or else the one of its type. -/
def keptConstant (oracle : TypeOracle) (p : Port) (former : Option Constant) : Constant :=
  let fresh := oracle.defaultConstant p.type
  match former with
  | some value =>
    if value.equals fresh || p.type = .unknown || value.type = p.type then value else fresh
  | none => fresh

/-- The values of inputs; each former value is used once. -/
def redefineConstants (oracle : TypeOracle) : List Port → OrderedMap PortId Constant →
    OrderedMap PortId Constant → OrderedMap PortId Constant
  | [], _, made => made
  | p :: rest, former, made =>
    redefineConstants oracle rest (former.erase p.id)
      (made.insert p.id (keptConstant oracle p (former.get? p.id)))

/-- A node with ports put in place. -/
def Node.withPorts (n : Node) (oracle : TypeOracle) (ports : List Port) : Node :=
  let inputs := ports.filter (·.direction = .input)
  { n with
    inputs := inputs
    outputs := ports.filter (·.direction = .output)
    constants := redefineConstants oracle (inputs.filter (·.kind = .data)) n.constants ∅
    defined := true }

namespace Graph

/-- The result of the function that execution reaches a node from. -/
def returnTypeOf? (g : Graph) (node : NodeId) : Option TypeHandle := do
  let f ← g.owningFunction? node
  let decl ← (← g.node? f).kind.function?
  return decl.returnType

/-- Removes the edges with an end at one of the ports. -/
def dropEdges (g : Graph) (ports : List PortId) : Graph :=
  { g with edges := g.edges.filter fun _ e =>
      !(ports.contains e.output.port || ports.contains e.input.port) }

/-- Defines the ports of a node, or defines them anew. -/
def defineNode (g : Graph) (env : DefinitionEnv) (node : NodeId) (supply : IdSupply) :
    Except DefinitionError (Graph × IdSupply) :=
  match g.node? node with
  | none => .error (.nodeNotFound node)
  | some n =>
    match n.kind.definePorts env g.vars (g.returnTypeOf? node) with
    | .error e => .error e
    | .ok specs =>
      let (ports, vanished, supply) := realizePorts node specs n.ports supply
      let defined := { g with nodes := g.nodes.insert node (n.withPorts env.oracle ports) }
      .ok (defined.dropEdges (vanished.map (·.id)), supply)

/-- Defines nodes one after the other and collects the failures. -/
def defineAll (env : DefinitionEnv) : List NodeId → Graph → IdSupply →
    List (NodeId × DefinitionError) × Graph × IdSupply
  | [], g, supply => ([], g, supply)
  | node :: rest, g, supply =>
    match g.defineNode env node supply with
    | .ok (g, supply) => defineAll env rest g supply
    | .error e =>
      let (failures, g, supply) := defineAll env rest g supply
      ((node, e) :: failures, g, supply)

/-- Defines every node whose ports have not been defined yet. -/
def defineUndefined (g : Graph) (env : DefinitionEnv) (supply : IdSupply) :
    List (NodeId × DefinitionError) × Graph × IdSupply :=
  defineAll env ((g.nodes.values.filter fun n => !n.defined).map (·.id)) g supply

end Graph

end NodeScript
