import NodeScript.Proofs.Graph.Edits
import NodeScript.Proofs.Graph.Redefine
import NodeScript.Proofs.Graph.Removal

/-!
Well-formed graphs: every port belongs to its node, edges join what may be joined, values come from
one place and execution goes to one place, and nodes and stacks know each other. Edits that add no
edges keep a graph that way if they leave the ports at the ends of the edges that stay.
-/

namespace NodeScript

/-- The ports of a node that face one way. -/
def Node.facing (n : Node) : PortDirection → List Port
  | .input => n.inputs
  | .output => n.outputs

/-- The end of an edge at an input or at an output. -/
def Edge.tip (e : Edge) : PortDirection → PortRef
  | .input => e.input
  | .output => e.output

/-- A node whose ports are its own and are told apart, by their names in each direction, and whose
constants are those of its inputs for values, in order. -/
structure Node.Ported (n : Node) : Prop where
  owned : ∀ p ∈ n.ports, p.node = n.id
  faces : ∀ d, ∀ p ∈ n.facing d, p.direction = d
  names : ∀ d, ((n.facing d).map (·.name)).Nodup
  identities : (n.ports.map (·.id)).Nodup
  constants : n.constants.keys = n.dataInputs.map (·.id)

/-- Execution goes through those ports of a node that its kind lets it through. -/
def Node.Flows (n : Node) : Prop :=
  ∀ p ∈ n.ports, p.kind = .execution ↔ n.kind.flowsThrough p.direction p.name = true

/-- A node that has the ports, the constants and the flow of another one. -/
structure Node.Keeps (m n : Node) : Prop where
  id : m.id = n.id
  inputs : m.inputs = n.inputs
  outputs : m.outputs = n.outputs
  constants : m.constants.keys = n.constants.keys
  builtIn : m.kind.isBuiltIn = n.kind.isBuiltIn
  flows : m.kind.flowsThrough = n.kind.flowsThrough

/-- Two ports that face the same way, with execution through both or values through both. -/
structure Port.Alike (p q : Port) : Prop where
  id : p.id = q.id
  direction : p.direction = q.direction
  flow : p.kind = .execution ↔ q.kind = .execution

theorem Port.Alike.canConnect {p p' q q' : Port} (source : p'.Alike p) (target : q'.Alike q) :
    p'.canConnect q' = p.canConnect q := by
  have carries : ∀ kind : PortKind, kind.carriesValue = !decide (kind = .execution) := by
    intro kind
    cases kind <;> rfl
  simp only [Port.canConnect, carries, source.direction, target.direction,
    decide_eq_decide.mpr source.flow, decide_eq_decide.mpr target.flow]

namespace Node

variable {m n : Node} {p : Port} {d : PortDirection}

theorem mem_ports : p ∈ n.ports ↔ p ∈ n.inputs ∨ p ∈ n.outputs := List.mem_append

theorem mem_ports_of_facing (member : p ∈ n.facing d) : p ∈ n.ports := by
  cases d with
  | input => exact mem_ports.mpr (Or.inl member)
  | output => exact mem_ports.mpr (Or.inr member)

namespace Ported

variable (ported : n.Ported)

include ported

theorem nodup_facing (d : PortDirection) : ((n.facing d).map (·.id)).Nodup := by
  have both := List.nodup_append.mp (List.map_append ▸ ported.identities)
  cases d with
  | input => exact both.1
  | output => exact both.2.1

theorem mem_facing (member : p ∈ n.ports) : p ∈ n.facing p.direction := by
  rcases mem_ports.mp member with input | output
  · rw [ported.faces .input p input]
    exact input
  · rw [ported.faces .output p output]
    exact output

/-- A port is found among those that face its way. -/
theorem find?_facing (member : p ∈ n.ports) :
    (n.facing p.direction).find? (·.id = p.id) = some p :=
  (find?_key_iff (ported.nodup_facing _)).mpr ⟨ported.mem_facing member, rfl⟩

end Ported

theorem Keeps.refl (n : Node) : n.Keeps n := ⟨rfl, rfl, rfl, rfl, rfl, rfl⟩

theorem Keeps.facing (keeps : m.Keeps n) (d : PortDirection) : m.facing d = n.facing d := by
  cases d with
  | input => exact keeps.inputs
  | output => exact keeps.outputs

theorem Keeps.ports (keeps : m.Keeps n) : m.ports = n.ports := by
  rw [Node.ports, keeps.inputs, keeps.outputs, Node.ports]

theorem Keeps.ported (keeps : m.Keeps n) (ported : n.Ported) : m.Ported where
  owned := by rw [keeps.ports, keeps.id]; exact ported.owned
  faces d := by rw [keeps.facing]; exact ported.faces d
  names d := by rw [keeps.facing]; exact ported.names d
  identities := by rw [keeps.ports]; exact ported.identities
  constants := by rw [keeps.constants, ported.constants, dataInputs, dataInputs, keeps.inputs]

theorem Keeps.flowing (keeps : m.Keeps n) (flows : n.Flows) : m.Flows := by
  unfold Flows
  rw [keeps.ports, keeps.flows]
  exact flows

theorem Ported.of_bare (bare : n.ports = []) (constants : n.constants = ∅) : n.Ported := by
  obtain ⟨inputs, outputs⟩ := List.append_eq_nil_iff.mp bare
  have none : ∀ d, n.facing d = [] := by
    intro d
    cases d with
    | input => exact inputs
    | output => exact outputs
  constructor <;> simp [bare, none, inputs, constants, dataInputs, OrderedMap.keys,
    OrderedMap.entries_empty]

/-- An input that takes values has one already, which another one may replace. -/
theorem Ported.keys_insert_constant (ported : n.Ported) (member : p ∈ n.dataInputs) (value : Constant) :
    (n.constants.insert p.id value).keys = n.constants.keys := by
  have present : p.id ∈ n.constants.keys := by
    rw [ported.constants]
    exact List.mem_map_of_mem member
  rw [OrderedMap.keys_insert, if_pos present]

theorem Ported.setConstant (ported : n.Ported) (member : p ∈ n.dataInputs) {value : Constant} :
    ({ n with constants := n.constants.insert p.id value } : Node).Ported :=
  { ported with constants := (ported.keys_insert_constant member value).trans ported.constants }

/-- The ports that a node is given are parted into inputs and outputs. -/
theorem perm_withPorts (n : Node) (oracle : TypeOracle) (ports : List Port) :
    (n.withPorts oracle ports).ports.Perm ports := by
  have outputs : ports.filter (·.direction = .output) =
      ports.filter fun p => !decide (p.direction = .input) := by
    refine List.filter_congr fun p _ => ?_
    cases p.direction <;> rfl
  rw [Node.ports, Node.withPorts]
  dsimp only
  rw [outputs]
  exact List.filter_append_perm ..

end Node

namespace Realized

variable {n : Node} {specs : List PortSpec} {ports vanished : List Port} {q : Port}
  {supply supply' : IdSupply} {env : DefinitionEnv} {vars : OrderedMap VariableId VariableDecl}
  {returnType : Option TypeHandle}

theorem ported (oracle : TypeOracle) (ported : n.Ported)
    (realized : Realized n.id specs n.ports ports vanished supply supply')
    (single : duplicatePort? [] specs = none) (lasts : supply'.next ≤ UInt64.size)
    (unused : ∀ q ∈ n.ports, ¬ supply.Holds q.id.uuid) :
    (n.withPorts oracle ports).Ported ∧ (n.withPorts oracle ports).ports.Perm ports := by
  have facing : ∀ d, (n.withPorts oracle ports).facing d = ports.filter (·.direction = d) := by
    intro d
    cases d <;> rfl
  have perm := n.perm_withPorts oracle ports
  have identities : ((n.withPorts oracle ports).ports.map (·.id)).Nodup :=
    (perm.map _).nodup_iff.mpr
      (List.nodup_append.mp (realized.nodup lasts ported.identities unused)).1
  refine ⟨⟨?_, ?_, ?_, identities, ?_⟩, perm⟩
  · exact fun p member => realized.owned ported.owned p (perm.mem_iff.mp member)
  · intro d p member
    rw [facing] at member
    simpa using (List.mem_filter.mp member).2
  · intro d
    rw [facing]
    exact realized.nodup_names single d
  · have data : ((n.withPorts oracle ports).dataInputs.map (·.id)).Nodup := by
      have inputs := (List.nodup_append.mp (List.map_append ▸ identities)).1
      exact inputs.sublist (List.filter_sublist.map _)
    have none : ((∅ : OrderedMap PortId Constant).keys ++
        (n.withPorts oracle ports).dataInputs.map (·.id)).Nodup := data
    exact keys_redefineConstants oracle n.constants none

/-- A former port that has not vanished has a successor with the same flow. -/
theorem alike {node : NodeId} (realized : Realized node specs n.ports ports vanished supply supply')
    (flows : n.Flows) (builtIn : n.kind.isBuiltIn = true)
    (declared : n.kind.declaredPorts env vars returnType = .ok specs) (member : q ∈ n.ports)
    (stays : q.id ∉ vanished.map (·.id)) : ∃ p ∈ ports, p.Alike q := by
  rcases realized.succession q member with gone | ⟨p, inside, succeeds⟩
  · exact absurd (List.mem_map_of_mem gone) stays
  · refine ⟨p, inside, succeeds.id, succeeds.direction, ?_⟩
    rw [realized.flows builtIn declared p inside, flows q member, succeeds.name,
      succeeds.direction]

end Realized

namespace Graph

/-- The port that a reference leads to among those that face one way. -/
def portAt? (g : Graph) (d : PortDirection) (ref : PortRef) : Option Port :=
  (g.node? ref.node).bind fun n => (n.facing d).find? (·.id = ref.port)

/-- Every edge leads from an output of one node to an input of another that fits, and no other edge
does the same; no other edge enters an input for values or for an object, and no other edge leaves an
output for execution. -/
structure Wired (g : Graph) : Prop where
  joined : ∀ {k e}, g.edge? k = some e → ∃ p q, g.portAt? .output e.output = some p ∧
    g.portAt? .input e.input = some q ∧ p.canConnect q = true ∧ e.output.node ≠ e.input.node
  distinct : ∀ {j k e f}, g.edge? j = some e → g.edge? k = some f →
    e.output.port = f.output.port → e.input.port = f.input.port → j = k
  singleInput : ∀ {j k e f q}, g.edge? j = some e → g.edge? k = some f →
    g.portAt? .input e.input = some q → q.kind ≠ .execution → e.input.port = f.input.port → j = k
  singleOutput : ∀ {j k e f p}, g.edge? j = some e → g.edge? k = some f →
    g.portAt? .output e.output = some p → p.kind = .execution → e.output.port = f.output.port → j = k

/-- Links, edges and ports are in order, and no port identity is used by two nodes. -/
structure WellFormed (g : Graph) : Prop extends g.Linked, g.Wired where
  ported : ∀ {id n}, g.node? id = some n → n.Ported
  apart : ∀ {i j n m p q}, g.node? i = some n → g.node? j = some m → p ∈ n.ports → q ∈ m.ports →
    p.id = q.id → i = j

/-- The identities of nodes, ports and edges. -/
inductive Uses (g : Graph) : Uuid → Prop
  | node {id n} : g.node? id = some n → g.Uses id.uuid
  | port {id n p} : g.node? id = some n → p ∈ n.ports → g.Uses p.id.uuid
  | edge {id e} : g.edge? id = some e → g.Uses id.uuid

/-- What edits rely on and keep: the graph is well-formed, its nodes are of built-in kinds and let
execution through as their kinds say, and the supply has none of its identities to give. -/
structure Tended (g : Graph) (supply : IdSupply) : Prop extends g.WellFormed where
  builtIn : ∀ {id n}, g.node? id = some n → n.kind.isBuiltIn = true
  flows : ∀ {id n}, g.node? id = some n → n.Flows
  unused : ∀ {u}, g.Uses u → ¬ supply.Holds u

/-- There are no edges but those that were there, and their ends are still what they were. -/
structure Narrowed (g g' : Graph) : Prop where
  edges : ∀ {k e}, g'.edge? k = some e → g.edge? k = some e
  tips : ∀ {k e d p}, g'.edge? k = some e → g.portAt? d (e.tip d) = some p →
    ∃ p', g'.portAt? d (e.tip d) = some p' ∧ p'.Alike p

/-- One node may have new ports, and all else is as it was or gone. -/
structure Reshaped (id : NodeId) (supply supply' : IdSupply) (g g' : Graph) : Prop
    extends Narrowed g g' where
  linked : g'.Linked
  nodes : ∀ {k m}, g'.node? k = some m → m.Ported ∧ m.kind.isBuiltIn = true ∧ m.Flows ∧
    ((∃ n, g.node? k = some n) ∨ supply.Taken supply' k.uuid)
  ports : ∀ {k m p}, g'.node? k = some m → p ∈ m.ports →
    (∃ n q, g.node? k = some n ∧ q ∈ n.ports ∧ q.id = p.id) ∨
      k = id ∧ supply.Taken supply' p.id.uuid

variable {g g' : Graph} {id i j k : NodeId} {n m : Node} {p q : Port} {ref : PortRef}
  {supply supply' : IdSupply} {env : DefinitionEnv}

theorem portAt?_eq {d : PortDirection} (found : g.node? ref.node = some n) :
    g.portAt? d ref = (n.facing d).find? (·.id = ref.port) := by rw [portAt?, found]; rfl

theorem exists_of_portAt? {d : PortDirection} (seen : g.portAt? d ref = some p) :
    ∃ n, g.node? ref.node = some n ∧ p ∈ n.facing d ∧ p.id = ref.port := by
  obtain ⟨n, found, seen⟩ := Option.bind_eq_some_iff.mp seen
  exact ⟨n, found, List.mem_of_find?_eq_some seen, by simpa using List.find?_some seen⟩

theorem involvesNode_tip (e : Edge) (d : PortDirection) : e.involvesNode (e.tip d).node = true := by
  cases d <;> simp [Edge.involvesNode, Edge.tip]

theorem Wired.narrow (wired : g.Wired) (narrowed : Narrowed g g') : g'.Wired where
  joined found := by
    obtain ⟨p, q, source, target, fit, apart⟩ := wired.joined (narrowed.edges found)
    obtain ⟨p', source', alikeP⟩ := narrowed.tips (d := .output) found source
    obtain ⟨q', target', alikeQ⟩ := narrowed.tips (d := .input) found target
    exact ⟨p', q', source', target', by rw [alikeP.canConnect alikeQ, fit], apart⟩
  distinct foundE foundF := wired.distinct (narrowed.edges foundE) (narrowed.edges foundF)
  singleInput foundE foundF target value := by
    obtain ⟨p, q, -, before, -⟩ := wired.joined (narrowed.edges foundE)
    obtain ⟨q', after, alike⟩ := narrowed.tips (d := .input) foundE before
    obtain rfl := Option.some.inj (target.symm.trans after)
    exact wired.singleInput (narrowed.edges foundE) (narrowed.edges foundF) before
      fun flow => value (alike.flow.mpr flow)
  singleOutput foundE foundF source flow := by
    obtain ⟨p, q, before, -⟩ := wired.joined (narrowed.edges foundE)
    obtain ⟨p', after, alike⟩ := narrowed.tips (d := .output) foundE before
    obtain rfl := Option.some.inj (source.symm.trans after)
    exact wired.singleOutput (narrowed.edges foundE) (narrowed.edges foundF) before
      (alike.flow.mp flow)

/-- A port is found by its identity alone. -/
theorem WellFormed.port_eq (formed : g.WellFormed) (foundN : g.node? i = some n)
    (foundM : g.node? j = some m) (memberP : p ∈ n.ports) (memberQ : q ∈ m.ports)
    (same : p.id = q.id) : i = j ∧ p = q := by
  obtain rfl := formed.apart foundN foundM memberP memberQ same
  obtain rfl := Option.some.inj (foundN.symm.trans foundM)
  exact ⟨rfl, List.inj_on_of_nodup_map (formed.ported foundN).identities memberP memberQ same⟩

theorem exists_of_mem_edges {e : Edge} (member : e ∈ g.edges.values) : ∃ k, g.edge? k = some e := by
  obtain ⟨k, held⟩ := OrderedMap.mem_values_iff.mp member
  exact ⟨k, OrderedMap.get?_eq_some_iff.mpr held⟩

/-- An edge at a port has its end at the node of the port. -/
theorem WellFormed.tip_node (formed : g.WellFormed) {e : Edge} (member : e ∈ g.edges.values)
    (found : g.node? k = some n) (own : p ∈ n.ports) (d : PortDirection)
    (same : (e.tip d).port = p.id) : (e.tip d).node = k := by
  obtain ⟨i, held⟩ := exists_of_mem_edges member
  obtain ⟨source, target, output, input, -⟩ := formed.joined held
  obtain ⟨q, seen⟩ : ∃ q, g.portAt? d (e.tip d) = some q := by
    cases d
    · exact ⟨target, input⟩
    · exact ⟨source, output⟩
  obtain ⟨m, foundM, facing, id⟩ := exists_of_portAt? seen
  exact (formed.port_eq foundM found (Node.mem_ports_of_facing facing) own (id.trans same)).1

namespace Tended

variable (tended : g.Tended supply)

include tended

theorem not_uses_of_taken {u : Uuid} (lasts : supply'.next ≤ UInt64.size)
    (taken : supply.Taken supply' u) : ¬ g.Uses u :=
  fun used => tended.unused used (taken.holds lasts)

theorem fresh (lasts : supply'.next ≤ UInt64.size) (taken : supply.Taken supply' id.uuid) :
    g.node? id = none :=
  Option.eq_none_iff_forall_ne_some.mpr fun _ found =>
    tended.not_uses_of_taken lasts taken (.node found)

theorem reshape (reshaped : Reshaped id supply supply' g g') (extended : supply.Extends supply')
    (lasts : supply'.next ≤ UInt64.size) : g'.Tended supply' where
  toLinked := reshaped.linked
  toWired := tended.toWired.narrow reshaped.toNarrowed
  ported found := (reshaped.nodes found).1
  builtIn found := (reshaped.nodes found).2.1
  flows found := (reshaped.nodes found).2.2.1
  apart {i j n m p q} foundN foundM memberP memberQ same := by
    -- old ports were told apart, new ones are not among the old ones and stand at one node only
    rcases reshaped.ports foundN memberP with ⟨n', p', oldN, oldP, sameP⟩ | ⟨hereN, newP⟩
    · rcases reshaped.ports foundM memberQ with ⟨m', q', oldM, oldQ, sameQ⟩ | ⟨hereM, newQ⟩
      · exact tended.apart oldN oldM oldP oldQ (sameP.trans (same.trans sameQ.symm))
      · have used : g.Uses q.id.uuid := by
          rw [← same, ← sameP]
          exact .port oldN oldP
        exact absurd used (tended.not_uses_of_taken lasts newQ)
    · rcases reshaped.ports foundM memberQ with ⟨m', q', oldM, oldQ, sameQ⟩ | ⟨hereM, newQ⟩
      · have used : g.Uses p.id.uuid := by
          rw [same, ← sameQ]
          exact .port oldM oldQ
        exact absurd used (tended.not_uses_of_taken lasts newP)
      · rw [hereN, hereM]
  unused used := by
    have old : ∀ {u}, g.Uses u → ¬ supply'.Holds u := fun used held =>
      tended.unused used (extended.holds held)
    cases used with
    | node found =>
      rcases (reshaped.nodes found).2.2.2 with ⟨n, before⟩ | taken
      · exact old (.node before)
      · exact taken.not_holds extended lasts
    | port found member =>
      rcases reshaped.ports found member with ⟨n, q, before, inside, same⟩ | ⟨-, taken⟩
      · exact same ▸ old (.port before inside)
      · exact taken.not_holds extended lasts
    | edge found => exact old (.edge (reshaped.edges found))

end Tended

/-- Nodes have the ports that they had, apart from a new one without ports; edges may be gone, and
where one is left its ends are too. -/
structure Spared (supply supply' : IdSupply) (g g' : Graph) : Prop where
  linked : g'.Linked
  nodes : ∀ {k m}, g'.node? k = some m → (∃ n, g.node? k = some n ∧ m.Keeps n) ∨
    m.kind.isBuiltIn = true ∧ m.ports = [] ∧ m.constants = ∅ ∧ supply.Taken supply' k.uuid
  edges : ∀ {k e}, g'.edge? k = some e → g.edge? k = some e
  ends : ∀ {k e x n}, g'.edge? k = some e → e.involvesNode x = true → g.node? x = some n →
    ∃ m, g'.node? x = some m ∧ m.Keeps n

theorem Spared.narrowed (spared : Spared supply supply' g g') : Narrowed g g' where
  edges := spared.edges
  tips {k e d p} found seen := by
    obtain ⟨n, foundN, -⟩ := exists_of_portAt? seen
    obtain ⟨m, foundM, keeps⟩ := spared.ends found (involvesNode_tip e d) foundN
    rw [portAt?_eq foundN] at seen
    exact ⟨p, by rw [portAt?_eq foundM, keeps.facing, seen], rfl, rfl, Iff.rfl⟩

theorem Tended.spare (tended : g.Tended supply) (spared : Spared supply supply' g g')
    (extended : supply.Extends supply') (lasts : supply'.next ≤ UInt64.size) :
    g'.Tended supply' := by
  have reshaped : Reshaped default supply supply' g g' := by
    refine ⟨spared.narrowed, spared.linked, fun {k m} found => ?_, fun {k m p} found member => ?_⟩
    · rcases spared.nodes found with ⟨n, before, keeps⟩ | ⟨builtIn, bare, constants, taken⟩
      · exact ⟨keeps.ported (tended.ported before), keeps.builtIn.trans (tended.builtIn before),
          keeps.flowing (tended.flows before), Or.inl ⟨n, before⟩⟩
      · exact ⟨.of_bare bare constants, builtIn, fun p member => by simp [bare] at member,
          Or.inr taken⟩
    · rcases spared.nodes found with ⟨n, before, keeps⟩ | ⟨-, bare, -, -⟩
      · exact Or.inl ⟨n, p, before, keeps.ports ▸ member, rfl⟩
      · simp [bare] at member
  exact tended.reshape reshaped extended lasts

namespace Spared

theorem refl (linked : g.Linked) : Spared supply supply g g where
  linked := linked
  nodes found := Or.inl ⟨_, found, .refl _⟩
  edges found := found
  ends _ _ found := ⟨_, found, .refl _⟩

theorem modify {change : Node → Node} (linked : g.Linked) (found : g.node? id = some n)
    (links : (change n).links = n.links) (keeps : (change n).Keeps n) :
    Spared supply supply g (g.modifyNode id change) := by
  have changed : (g.modifyNode id change).node? id = some (change n) := by
    rw [node?_modifyNode, if_pos rfl, found, Option.map_some]
  refine ⟨(Reworked.modify found links).linked linked, fun {k m} foundK => Or.inl ?_,
    fun found => found, fun {k e x m} _ _ foundX => ?_⟩
  · by_cases same : k = id
    · subst same
      obtain rfl := Option.some.inj (changed.symm.trans foundK)
      exact ⟨n, found, keeps⟩
    · rw [node?_modifyNode, if_neg same] at foundK
      exact ⟨m, foundK, .refl m⟩
  · by_cases same : x = id
    · subst same
      obtain rfl := Option.some.inj (found.symm.trans foundX)
      exact ⟨_, changed, keeps⟩
    · exact ⟨m, by rw [node?_modifyNode, if_neg same, foundX], .refl m⟩

/-- Edges are gone and nodes are not. -/
theorem of_edges (linked : g.Linked) (nodes : g'.nodes = g.nodes)
    (edges : ∀ {k e}, g'.edge? k = some e → g.edge? k = some e) : Spared supply supply g g' := by
  have same : ∀ k, g'.node? k = g.node? k := fun k => by rw [node?, node?, nodes]
  refine ⟨linked.of_links (fun k => by rw [same]) fun found => linked.edgeFiled (edges found),
    fun found => Or.inl ⟨_, (same _).symm.trans found, .refl _⟩, edges,
    fun _ _ found => ⟨_, (same _).trans found, .refl _⟩⟩

theorem remove (linked : g.Linked) (id : NodeId) : Spared supply supply g (g.remove id).2 := by
  cases found : g.node? id with
  | none =>
    have idle : (g.remove id).2 = g := by
      rw [Graph.remove]
      cases g.nodes.size with
      | zero => rfl
      | succ depth => simp [removeWithin, found]
    rw [idle]
    exact refl linked
  | some n =>
    have without := linked.remove_spec found
    have kept : ∀ {k m}, k ∉ id :: n.children → g.node? k = some m →
        ∃ m', (g.remove id).2.node? k = some m' ∧ m'.Keeps m := by
      intro k m stays before
      rw [without.nodes, if_neg stays, before]
      split
      · exact ⟨_, rfl, rfl, rfl, rfl, rfl, rfl, rfl⟩
      · exact ⟨m, rfl, .refl m⟩
    refine ⟨without.linked linked found, fun {k m} foundK => Or.inl ?_,
      fun found => without.edge?_of_edge? found,
      fun foundE involved foundX => kept (without.stays_of_edge foundE involved) foundX⟩
    obtain ⟨stays, m', before, -⟩ := without.exists_of_node? foundK
    obtain ⟨m'', foundK', keeps⟩ := kept stays before
    obtain rfl := Option.some.inj (foundK.symm.trans foundK')
    exact ⟨m', before, keeps⟩

theorem addNode (linked : g.Linked) (fresh : g.node? n.id = none) (free : n.parent = none)
    (childless : n.children = []) (builtIn : n.kind.isBuiltIn = true) (bare : n.ports = [])
    (constants : n.constants = ∅) (taken : supply.Taken supply' n.id.uuid) :
    Spared supply supply' g (g.addNode n) := by
  refine ⟨linked.addNode fresh free childless, fun {k m} found => ?_, fun found => found,
    fun {k e x m} _ _ found => ?_⟩
  · rw [node?_addNode] at found
    split at found
    · rename_i same
      obtain rfl := Option.some.inj found
      exact Or.inr ⟨builtIn, bare, constants, same ▸ taken⟩
    · exact Or.inl ⟨m, found, .refl m⟩
  · have other : x ≠ n.id := by
      rintro rfl
      simp [fresh] at found
    exact ⟨m, by rw [node?_addNode, if_neg other, found], .refl m⟩

theorem stackNode {stack : NodeId} {holder : Node} {place : Nat} (linked : g.Linked)
    (fresh : g.node? n.id = none) (found : g.node? stack = some holder)
    (isStack : holder.kind.isStack = true) (within : place ≤ holder.children.length)
    (stands : n.parent = some stack) (childless : n.children = [])
    (single : n.kind.isStack = false) (builtIn : n.kind.isBuiltIn = true) (bare : n.ports = [])
    (constants : n.constants = ∅) (taken : supply.Taken supply' n.id.uuid) :
    Spared supply supply' g (g.stackNode n stack place) := by
  have inserted : (holder.insertChild place n.id).Keeps holder := ⟨rfl, rfl, rfl, rfl, rfl, rfl⟩
  refine ⟨linked.stackNode fresh found isStack within stands childless single,
    fun {k m} foundK => ?_, fun found => found, fun {k e x m} _ _ foundX => ?_⟩
  · rcases stackNode_cases fresh found foundK with ⟨rfl, rfl⟩ | ⟨rfl, rfl⟩ | ⟨-, foundK⟩
    · exact Or.inl ⟨holder, found, inserted⟩
    · exact Or.inr ⟨builtIn, bare, constants, taken⟩
    · exact Or.inl ⟨m, foundK, .refl m⟩
  · rw [node?_stackNode fresh found]
    split
    · rename_i same
      subst same
      obtain rfl := Option.some.inj (found.symm.trans foundX)
      exact ⟨_, rfl, inserted⟩
    · have other : x ≠ n.id := by
        rintro rfl
        simp [fresh] at foundX
      exact ⟨m, by rw [if_neg other, foundX], .refl m⟩

end Spared

end Graph

end NodeScript
