import NodeScript.Proofs.Graph.Histories
import NodeScript.Proofs.Graph.InPlace
import NodeScript.Proofs.Graph.Lasting

/-!
What defining the ports of a node does, to the last edge. A port is a former one exactly if there was
one of its name and direction, an edge is gone exactly if it touched a former port that is specified
no longer, and nothing else changes. Defining the ports again changes nothing, unless it was the node
itself that kept the function from being found whose result it returns.
-/

namespace NodeScript

/-! ### Ports -/

/-- What a port and a specification are matched by. -/
def Port.label (p : Port) : PortDirection × String := (p.direction, p.name)

def PortSpec.label (spec : PortSpec) : PortDirection × String := (spec.direction, spec.name)

section Realizing

variable {node : NodeId} {spec : PortSpec} {specs : List PortSpec} {former : List Port} {p q : Port}
  {supply : IdSupply}

/-- A specification is realized by a new port when there is no former one for it. -/
theorem realize_of_absent (node : NodeId) (supply : IdSupply)
    (absent : ∀ q ∈ former, q.label ≠ spec.label) :
    spec.realize node former supply =
      (spec.toPort ⟨supply.fresh.1⟩ node, former, supply.fresh.2) := by
  unfold PortSpec.realize
  split
  · rename_i i place
    obtain ⟨bound, fits, -⟩ := List.findIdx?_eq_some_iff_getElem.mp place
    simp only [Bool.and_eq_true, decide_eq_true_eq] at fits
    exact absurd (Prod.ext fits.2 fits.1) (absent _ (List.getElem_mem bound))
  · rfl

theorem realize_by_label (node : NodeId) (supply : IdSupply) (member : p ∈ former)
    (label : p.label = spec.label) :
    ∃ q rest, former.Perm (q :: rest) ∧ q.label = spec.label ∧
      spec.realize node former supply = (q.retype spec, rest, supply) := by
  obtain ⟨direction, name⟩ := Prod.mk.inj label
  obtain ⟨q, rest, perm, name, direction, realized⟩ := realize_of_mem node supply member name direction
  exact ⟨q, rest, perm, Prod.ext direction name, realized⟩

/-- What comes of former ports, told apart by their labels: those that are specified keep their
identities, new ones are made for the other specifications, and the rest is left over. -/
structure Succession (specs : List PortSpec) (former ports vanished : List Port)
    (supply supply' : IdSupply) : Prop where
  kept : ∀ p ∈ ports, ∀ q ∈ former, q.label = p.label → p.id = q.id
  made : ∀ p ∈ ports, (∀ q ∈ former, q.label ≠ p.label) → supply.Taken supply' p.id.uuid
  left : ∀ q, q ∈ vanished ↔ q ∈ former ∧ ∀ spec ∈ specs, spec.label ≠ q.label

theorem realizePorts_succession (node : NodeId) (supply : IdSupply)
    (distinct : (former.map Port.label).Nodup) (single : (specs.map PortSpec.label).Nodup) :
    Succession specs former (realizePorts node specs former supply).1
      (realizePorts node specs former supply).2.1 supply
      (realizePorts node specs former supply).2.2 := by
  induction specs generalizing former supply with
  | nil =>
    refine ⟨fun p none => absurd none List.not_mem_nil, fun p none => absurd none List.not_mem_nil,
      fun q => ⟨fun member => ⟨member, fun _ none => absurd none List.not_mem_nil⟩, And.left⟩⟩
  | cons spec specs ih =>
    obtain ⟨alone, single⟩ := List.nodup_cons.mp single
    -- the ports that come later have other labels than the first
    have others : ∀ former supply, ∀ p ∈ (realizePorts node specs former supply).1,
        p.label ≠ spec.label := by
      intro former supply p member same
      have specified : p.spec ∈ specs :=
        realizePorts_specs node specs former supply ▸ List.mem_map_of_mem member
      exact alone (same ▸ List.mem_map_of_mem (f := PortSpec.label) specified)
    by_cases present : ∃ p ∈ former, p.label = spec.label
    · obtain ⟨p, member, label⟩ := present
      obtain ⟨q, rest, perm, labelQ, realized⟩ := realize_by_label node supply member label
      have split : (q :: rest).map Port.label |>.Nodup := (perm.map _).nodup_iff.mp distinct
      obtain ⟨unlike, distinct'⟩ := List.nodup_cons.mp split
      have apart : ∀ r ∈ rest, r.label ≠ spec.label := fun r inside same =>
        unlike (labelQ.trans same.symm ▸ List.mem_map_of_mem inside)
      obtain ⟨kept, made, left⟩ := ih supply distinct' single
      have extended := IdSupply.realizePorts_extends node specs rest supply
      simp only [realizePorts, realized]
      refine ⟨List.forall_mem_cons.mpr ⟨fun r inside same => ?_, fun p inside r within same => ?_⟩,
        List.forall_mem_cons.mpr ⟨fun absent => ?_, fun p inside absent => ?_⟩, fun r => ?_⟩
      · rcases List.mem_cons.mp (perm.mem_iff.mp inside) with rfl | later
        · rfl
        · exact absurd (same.trans labelQ) (apart r later)
      · rcases List.mem_cons.mp (perm.mem_iff.mp within) with rfl | later
        · exact absurd (same.symm.trans labelQ) (others rest supply p inside)
        · exact kept p inside r later same
      · exact absurd rfl (absent q (perm.mem_iff.mpr (.head _)))
      · exact made p inside fun r within => absent r (perm.mem_iff.mpr (.tail _ within))
      · rw [left, perm.mem_iff, List.forall_mem_cons]
        constructor
        · rintro ⟨inside, unspecified⟩
          exact ⟨.tail _ inside, (apart r inside).symm, unspecified⟩
        · rintro ⟨inside, first, unspecified⟩
          rcases List.mem_cons.mp inside with rfl | later
          · exact absurd labelQ.symm first
          · exact ⟨later, unspecified⟩
    · have absent : ∀ q ∈ former, q.label ≠ spec.label := fun q member same =>
        present ⟨q, member, same⟩
      obtain ⟨kept, made, left⟩ := ih supply.fresh.2 distinct single
      have extended := IdSupply.realizePorts_extends node specs former supply.fresh.2
      simp only [realizePorts, realize_of_absent node supply absent]
      refine ⟨List.forall_mem_cons.mpr ⟨fun r inside same => absurd same (absent r inside), kept⟩,
        List.forall_mem_cons.mpr ⟨fun _ => IdSupply.taken_fresh extended, fun p inside absent => ?_⟩,
        fun r => ?_⟩
      · exact (made p inside absent).earlier (IdSupply.extends_fresh supply)
      · rw [left, List.forall_mem_cons]
        constructor
        · rintro ⟨inside, unspecified⟩
          exact ⟨inside, (absent r inside).symm, unspecified⟩
        · rintro ⟨inside, -, unspecified⟩
          exact ⟨inside, unspecified⟩

end Realizing

namespace Node

variable {n : Node} {oracle : TypeOracle} {specs : List PortSpec} {ports : List Port} {p : Port}

theorem Ported.nodup_labels (ported : n.Ported) : (n.ports.map Port.label).Nodup := by
  have side : ∀ d, ((n.facing d).map Port.label).Nodup := by
    intro d
    have labels : (n.facing d).map Port.label = ((n.facing d).map (·.name)).map (d, ·) := by
      rw [List.map_map]
      refine List.map_congr_left fun p member => ?_
      rw [Function.comp_apply, Port.label, ported.faces d p member]
    rw [labels]
    exact (ported.names d).map fun a b same => (Prod.mk.inj same).2
  rw [Node.ports, List.map_append]
  refine List.nodup_append.mpr ⟨side .input, side .output, ?_⟩
  rintro a inward b outward rfl
  obtain ⟨p, memberP, labelP⟩ := List.mem_map.mp inward
  obtain ⟨q, memberQ, labelQ⟩ := List.mem_map.mp outward
  have faces := congrArg Prod.fst (labelP.trans labelQ.symm)
  have faceP : p.direction = .input := ported.faces .input p memberP
  have faceQ : q.direction = .output := ported.faces .output q memberQ
  rw [Port.label, Port.label, faceP, faceQ] at faces
  cases faces

/-- Whether a node has a port of an identity that is not specified. -/
def loses (n : Node) (specs : List PortSpec) (port : PortId) : Bool :=
  n.ports.any fun q => q.id = port && !specs.any fun spec => spec.label = q.label

theorem contains_vanished {former vanished : List Port} {supply supply' : IdSupply}
    (same : former = n.ports) (succession : Succession specs former ports vanished supply supply')
    (port : PortId) : (vanished.map (·.id)).contains port = n.loses specs port := by
  subst same
  rw [Bool.eq_iff_iff, List.contains_iff_mem, loses, List.any_eq_true]
  constructor
  · intro gone
    obtain ⟨q, member, rfl⟩ := List.mem_map.mp gone
    obtain ⟨inside, unspecified⟩ := (succession.left q).mp member
    refine ⟨q, inside, ?_⟩
    simpa using unspecified
  · rintro ⟨q, inside, gone⟩
    obtain ⟨rfl, unspecified⟩ : q.id = port ∧ ∀ spec ∈ specs, spec.label ≠ q.label := by
      simpa using gone
    exact List.mem_map_of_mem ((succession.left q).mpr ⟨inside, unspecified⟩)

end Node

/-- What a node is when its ports have been defined: it has those that are specified, each with the
identity of the former port of its name and direction if there was one, and a constant for each of
its data inputs. Nothing else of it has changed. -/
structure Node.Redefined (n n' : Node) (specs : List PortSpec) (supply supply' : IdSupply) : Prop where
  shown : n'.Shows specs
  owned : ∀ p ∈ n'.ports, p.node = n.id
  kept : ∀ p ∈ n'.ports, ∀ q ∈ n.ports, q.name = p.name → q.direction = p.direction → p.id = q.id
  made : ∀ p ∈ n'.ports, (∀ q ∈ n.ports, q.name = p.name → q.direction ≠ p.direction) →
    supply.Taken supply' p.id.uuid
  constants : n'.constants.keys = (n'.inputs.filter (·.kind = .data)).map (·.id)
  defined : n'.defined = true
  rest : n' = { n with
    inputs := n'.inputs, outputs := n'.outputs, constants := n'.constants, defined := true }

namespace Graph

variable {g g' : Graph} {env : DefinitionEnv} {id : NodeId} {n : Node} {specs : List PortSpec}
  {supply supply' : IdSupply}

/-! ### Defining again -/

/-- Nothing is asked about results but by the nodes that return them. -/
theorem definePorts_unless_leave {kind : NodeKind} (other : kind ≠ .leave) (env : DefinitionEnv)
    (vars : OrderedMap VariableId VariableDecl) (result result' : Option TypeHandle) :
    kind.definePorts env vars result = kind.definePorts env vars result' := by
  have declared : kind.declaredPorts env vars result = kind.declaredPorts env vars result' := by
    cases kind with
    | leave => exact absurd rfl other
    | _ => rfl
  rw [NodeKind.definePorts, NodeKind.definePorts, declared]

/-- The edges into a port of another node stay when no edge leaves the node that is defined. -/
theorem edgesTo_dropEdges {m : Node} {k : NodeId} {p : Port} {vanished : List Port}
    {nodes : OrderedMap NodeId Node} (formed : g.WellFormed) (found : g.node? id = some n)
    (quiet : ∀ k e, g.edge? k = some e → e.output.node ≠ id) (former : ∀ q ∈ vanished, q ∈ n.ports)
    (foundM : g.node? k = some m) (member : p ∈ m.ports) (other : k ≠ id) :
    (({ g with nodes } : Graph).dropEdges (vanished.map (·.id))).edgesTo p.id = g.edgesTo p.id := by
  have apart : ∀ {i : NodeId} {m' : Node} {q : Port}, i ≠ id → g.node? i = some m' → q ∈ m'.ports →
      q.id ∉ vanished.map (·.id) := by
    intro i m' q away foundQ inside gone
    obtain ⟨r, left, same⟩ := List.mem_map.mp gone
    exact away (formed.apart foundQ found inside (former r left) same.symm)
  have filtered : ∀ entry ∈ g.edges.entries, entry.2.input.port = p.id →
      (!((vanished.map (·.id)).contains entry.2.output.port ||
        (vanished.map (·.id)).contains entry.2.input.port)) = true := by
    intro entry listed enters
    have held : g.edge? entry.1 = some entry.2 := OrderedMap.get?_eq_some_iff.mpr listed
    obtain ⟨s, t, source, target, -, -⟩ := formed.joined held
    obtain ⟨ms, foundS, insideS, sameS⟩ := exists_of_portAt? source
    have spared := apart (quiet _ _ held) foundS (Node.mem_ports_of_facing insideS)
    have here := apart other foundM member
    have goneS : (vanished.map (·.id)).contains entry.2.output.port = false :=
      Bool.eq_false_iff.mpr fun gone => spared (sameS ▸ List.contains_iff_mem.mp gone)
    have goneP : (vanished.map (·.id)).contains entry.2.input.port = false :=
      Bool.eq_false_iff.mpr fun gone => here (enters ▸ List.contains_iff_mem.mp gone)
    rw [goneS, goneP]
    rfl
  simp only [edgesTo, dropEdges, OrderedMap.values, OrderedMap.filter, List.filter_map]
  congr 1
  rw [List.filter_filter]
  refine List.filter_congr fun entry listed => ?_
  by_cases enters : entry.2.input.port = p.id
  · simp only [Function.comp_apply, enters, decide_true, Bool.true_and]
    simpa [enters] using filtered entry listed enters
  · simp [enters]

/-- A node that returns a result, and that no edge leaves, runs in the same function before and after
its ports are defined. -/
theorem returnTypeOf?_of_quiet {ports vanished : List Port} (formed : g.WellFormed)
    (found : g.node? id = some n) (single : n.kind.isStack = false)
    (quiet : ∀ k e, g.edge? k = some e → e.output.node ≠ id)
    (former : ∀ q ∈ vanished, q ∈ n.ports) :
    (Graph.dropEdges { g with nodes := g.nodes.insert id (n.withPorts env.oracle ports) }
      (vanished.map (·.id))).returnTypeOf? id = g.returnTypeOf? id := by
  refine returnTypeOf?_of_entered found single rfl fun k m other foundM => ?_
  unfold previous?
  cases m.kind.isStack with
  | false => rfl
  | true =>
    cases entry : m.input? "In" with
    | none => rfl
    | some p =>
      have member : p ∈ m.ports := Node.mem_ports.mpr (Or.inl (List.mem_of_find?_eq_some entry))
      simp only [if_true, Option.bind_eq_bind, Option.bind_some,
        edgesTo_dropEdges formed found quiet former foundM member other]

/-- Defining ports again changes nothing where the same ports are specified. -/
theorem defineNode_again (found : g.node? id = some n)
    (defined : n.kind.definePorts env g.vars (g.returnTypeOf? id) = .ok specs)
    (run : g.defineNode env id supply = .ok (g', supply'))
    (same : n.kind.definePorts env g.vars (g'.returnTypeOf? id) = .ok specs) (later : IdSupply) :
    g'.defineNode env id later = .ok (g', later) := by
  obtain ⟨specs', defined', made, -⟩ := defineNode_made found run
  obtain rfl : specs' = specs := Except.ok.inj (defined'.symm.trans defined)
  have specified := realizePorts_specs id specs' n.ports supply
  have single := (duplicatePort?_eq_none (NodeKind.definePorts_ok defined).2).2
  generalize (realizePorts id specs' n.ports supply).1 = ports at made specified
  have now : g'.node? id = some (n.withPorts env.oracle ports) := by
    rw [made]
    exact OrderedMap.get?_insert_self
  have vars : g'.vars = g.vars := by rw [made]; rfl
  have inPlace : realizePorts id specs' (n.withPorts env.oracle ports).ports later =
      (ports, [], later) := by
    rw [realizePorts_in_place id later (n.perm_withPorts env.oracle ports)
      (shapes_of_specs specified) single, zipWith_retype_self specified]
  have again := defineNode_in_place now (vars ▸ same) inPlace
  have whole : g'.nodes.insert id (n.withPorts env.oracle ports) = g'.nodes :=
    OrderedMap.insert_of_get? now
  rw [again, Node.withPorts_again, whole]

/-! ### What is defined -/

/-- What defining the ports of a node leaves: the node has been redefined, the edges are those that
touch no port it has lost, and all other things are as they were. -/
structure RedefinedAt (g g' : Graph) (id : NodeId) (n n' : Node) (specs : List PortSpec)
    (supply supply' : IdSupply) : Prop where
  now : g'.node? id = some n'
  redefined : n.Redefined n' specs supply supply'
  edges : g'.edges = g.edges.filter fun _ e =>
    !(n.loses specs e.output.port || n.loses specs e.input.port)
  others : ∀ k, k ≠ id → g'.node? k = g.node? k
  order : g'.nodes.keys = g.nodes.keys
  vars : g'.vars = g.vars
  name : g'.name = g.name
  stencil : g'.stencil = g.stencil

theorem defineNode_redefined (formed : g.WellFormed) (unused : ∀ {u}, g.Uses u → ¬ supply.Holds u)
    (found : g.node? id = some n)
    (defined : n.kind.definePorts env g.vars (g.returnTypeOf? id) = .ok specs)
    (run : g.defineNode env id supply = .ok (g', supply')) (lasts : supply'.next ≤ UInt64.size) :
    ∃ n', RedefinedAt g g' id n n' specs supply supply' := by
  obtain ⟨specs', defined', made, rfl⟩ := defineNode_made found run
  obtain rfl : specs' = specs := Except.ok.inj (defined'.symm.trans defined)
  have ported := formed.ported found
  have filed : n.id = id := formed.nodeFiled found
  have single := NodeKind.definePorts_ok defined |>.2
  have specified := realizePorts_specs id specs' n.ports supply
  have realized := realizePorts_realized id specs' n.ports supply
  obtain ⟨kept, fresh, left⟩ := realizePorts_succession id supply ported.nodup_labels
    (duplicatePort?_eq_none single).2
  generalize realizePorts id specs' n.ports supply = result at *
  obtain ⟨ports, vanished, supply'⟩ := result
  obtain ⟨ported', perm⟩ := Realized.ported env.oracle ported (filed.symm ▸ realized) single lasts
    fun q member => unused (.port found member)
  have lost : ∀ port, (vanished.map (·.id)).contains port = n.loses specs' port :=
    Node.contains_vanished rfl ⟨kept, fresh, left⟩
  have redefined : n.Redefined (n.withPorts env.oracle ports) specs' supply supply' := by
    refine ⟨n.shows_withPorts env.oracle specified, ported'.owned, fun p inside q member name
      direction => ?_, fun p inside absent => ?_, ported'.constants, rfl, rfl⟩
    · exact kept p (perm.mem_iff.mp inside) q member (Prod.ext direction name)
    · exact fresh p (perm.mem_iff.mp inside) fun q member same =>
        absent q member (Prod.mk.inj same).2 (Prod.mk.inj same).1
  refine ⟨n.withPorts env.oracle ports, ?_, redefined, ?_, fun k other => ?_, ?_, ?_, ?_, ?_⟩
  · rw [made]
    exact OrderedMap.get?_insert_self
  · rw [made]
    simp only [dropEdges, lost]
  · rw [made]
    exact OrderedMap.get?_insert_of_ne other
  · rw [made]
    exact (OrderedMap.keys_insert).trans (if_pos (OrderedMap.mem_keys_of_get? found))
  · rw [made]; rfl
  · rw [made]; rfl
  · rw [made]; rfl

/-- Defining the ports of a node of a well-formed graph. It fails exactly where there is no such node
or its ports cannot be told, and then nothing has changed. Where it succeeds, the ports are those that
are specified, former ones keep their identities, the edges that are gone are those of ports that are
specified no longer, and nothing else has changed; and to define the ports again changes nothing,
unless the node is one that returns a result and that an edge leaves. -/
theorem defineNode_exact (formed : g.WellFormed) (unused : ∀ {u}, g.Uses u → ¬ supply.Holds u)
    (env : DefinitionEnv) (id : NodeId) :
    (∀ e, g.defineNode env id supply = .error e →
      (g.node? id = none ∨ ∃ n, g.node? id = some n ∧
        n.kind.definePorts env g.vars (g.returnTypeOf? id) = .error e) ∧
      (GraphEdit.define id).apply env (g, supply) = (g, supply)) ∧
    ∀ g' supply', g.defineNode env id supply = .ok (g', supply') → supply'.next ≤ UInt64.size →
      ∃ n n' specs, g.node? id = some n ∧
        n.kind.definePorts env g.vars (g.returnTypeOf? id) = .ok specs ∧
        RedefinedAt g g' id n n' specs supply supply' ∧
        ((n.kind = .leave → ∀ k e, g.edge? k = some e → e.output.node ≠ id) →
          ∀ later, g'.defineNode env id later = .ok (g', later)) := by
  refine ⟨fun e failed => ⟨?_, ?_⟩, fun g' supply' run lasts => ?_⟩
  · cases found : g.node? id with
    | none => exact .inl rfl
    | some n => exact .inr ⟨n, rfl, (defineNode_error_iff found).mp failed⟩
  · rw [GraphEdit.apply, failed]
  · cases found : g.node? id with
    | none =>
      rw [defineNode, found] at run
      cases run
    | some n =>
      obtain ⟨specs, defined, made, -⟩ := defineNode_made found run
      obtain ⟨n', redefined⟩ := defineNode_redefined formed unused found defined run lasts
      refine ⟨n, n', specs, rfl, defined, redefined, fun quiet later => ?_⟩
      refine defineNode_again found defined run ?_ later
      by_cases leaves : n.kind = .leave
      · have single : n.kind.isStack = false := by rw [leaves]; rfl
        have former : ∀ q ∈ (realizePorts id specs n.ports supply).2.1, q ∈ n.ports := fun q gone =>
          ((realizePorts_succession id supply (formed.ported found).nodup_labels
            (duplicatePort?_eq_none (NodeKind.definePorts_ok defined).2).2).left q |>.mp gone).1
        rw [made, returnTypeOf?_of_quiet formed found single (quiet leaves) former]
        exact defined
      · rw [definePorts_unless_leave leaves env g.vars _ (g.returnTypeOf? id)]
        exact defined

/-- Whether a graph is well-formed does not depend on kinds, apart from which are stacks. -/
theorem WellFormed.rekind {kind : NodeKind} (formed : g.WellFormed) (found : g.node? id = some n)
    (same : kind.isStack = n.kind.isStack) :
    (g.modifyNode id fun n => { n with kind }).WellFormed := by
  have before : ∀ {k m}, (g.modifyNode id fun n => { n with kind }).node? k = some m →
      ∃ m', g.node? k = some m' ∧ m.id = m'.id ∧ m.inputs = m'.inputs ∧ m.outputs = m'.outputs ∧
        m.constants = m'.constants := by
    intro k m foundM
    rw [node?_modifyNode] at foundM
    split at foundM
    · rename_i here
      obtain ⟨m', foundM', rfl⟩ := Option.map_eq_some_iff.mp foundM
      exact ⟨m', here ▸ foundM', rfl, rfl, rfl, rfl⟩
    · exact ⟨m, foundM, rfl, rfl, rfl, rfl⟩
  have portAt : ∀ d ref, (g.modifyNode id fun n => { n with kind }).portAt? d ref =
      g.portAt? d ref := by
    intro d ref
    rw [portAt?, portAt?, node?_modifyNode]
    split
    · rename_i here
      rw [here, found]
      cases d <;> rfl
    · rfl
  have links : ({ n with kind } : Node).links = n.links := by rw [Node.links, Node.links, same]
  refine ⟨(Reworked.modify found links).linked formed.toLinked, ⟨fun held => ?_, formed.distinct,
    fun heldE heldF seen => ?_, fun heldE heldF seen => ?_⟩, fun {k m} foundM => ?_,
    fun foundN foundM memberP memberQ sameId => ?_⟩
  · simpa only [portAt] using formed.joined held
  · exact formed.singleInput heldE heldF (portAt _ _ ▸ seen)
  · exact formed.singleOutput heldE heldF (portAt _ _ ▸ seen)
  · obtain ⟨m', foundM', id, inputs, outputs, constants⟩ := before foundM
    obtain ⟨owned, faces, names, identities, keys⟩ := formed.ported foundM'
    have facing : ∀ d, m.facing d = m'.facing d := by
      intro d
      cases d with
      | input => exact inputs
      | output => exact outputs
    refine ⟨?_, fun d => ?_, fun d => ?_, ?_, ?_⟩
    · rw [Node.ports, inputs, outputs, id]
      exact owned
    · rw [facing]
      exact faces d
    · rw [facing]
      exact names d
    · rw [Node.ports, inputs, outputs]
      exact identities
    · rw [constants, Node.dataInputs, inputs]
      exact keys
  · obtain ⟨n', foundN', -, inputs, outputs, -⟩ := before foundN
    obtain ⟨m', foundM', -, inputs', outputs', -⟩ := before foundM
    refine formed.apart foundN' foundM' ?_ ?_ sameId
    · rwa [Node.ports, inputs, outputs] at memberP
    · rwa [Node.ports, inputs', outputs'] at memberQ

/-- A function that branches to a stack. -/
def branching : Workpiece :=
  (Workpiece.start "Branching" .standard (.ofFamily 0)).after
    (GraphEdit.branching.map fun edit => (⟨TypeDatabase.empty.toOracle, ∅⟩, edit))

theorem branching_tended : branching.1.Tended branching.2 :=
  (Workpiece.after_tends _ _).tended (by decide +kernel)
    (Workpiece.start_tended "Branching" .standard (.ofFamily 0))

/-- A stack that returns a constant, once the function has been led elsewhere. -/
def stranded : Workpiece :=
  let node (n : Nat) : NodeId := ⟨familyIdentity 0 n⟩
  (Workpiece.start "Stranded" .standard (.ofFamily 0)).after
    ([.spawn ⟨.function (.method "Get" .bool), Eq.refl true⟩ default, .spawn ⟨.stack, Eq.refl true⟩ default,
      .push (node 2) none ⟨.leave, Eq.refl true⟩, .connectByName (node 0) "Out" (node 2) "In",
      .define (node 5), .spawn ⟨.constant (.bool true), Eq.refl true⟩ default,
      .connectByName (node 8) "Value" (node 5) "Value", .disconnect ⟨familyIdentity 0 6⟩].map
        fun edit => (⟨TypeDatabase.empty.toOracle, ∅⟩, edit))

/-- The node that returns the constant is in no function any more: its input vanishes, and with that
the edge from the constant. -/
theorem defineNode_exact_stranded :
    let env : DefinitionEnv := ⟨TypeDatabase.empty.toOracle, ∅⟩
    let id : NodeId := ⟨familyIdentity 0 5⟩
    stranded.1.WellFormed ∧ (∀ {u}, stranded.1.Uses u → ¬ stranded.2.Holds u) ∧
      stranded.1.edges.size = 1 ∧ ∃ g' supply',
        stranded.1.defineNode env id stranded.2 = .ok (g', supply') ∧
        supply'.next ≤ UInt64.size ∧ (∃ n n' specs, stranded.1.node? id = some n ∧
          n.inputs.length = 1 ∧ n'.inputs = [] ∧ g'.edges.size = 0 ∧
          RedefinedAt stranded.1 g' id n n' specs stranded.2 supply') ∧
        (∀ k e, stranded.1.edge? k = some e → e.output.node ≠ id) ∧
        ∀ later, g'.defineNode env id later = .ok (g', later) := by
  intro env id
  have tended : stranded.1.Tended stranded.2 := (Workpiece.after_tends _ _).tended
    (by decide +kernel) (Workpiece.start_tended "Stranded" .standard (.ofFamily 0))
  have one : ((stranded.1.node? id).any fun n => n.inputs.length = 1) = true := by decide +kernel
  have quiet : ∀ k e, stranded.1.edge? k = some e → e.output.node ≠ id := by
    have sources : (stranded.1.edges.values.all fun e => e.output.node ≠ id) = true := by
      decide +kernel
    intro k e held
    exact of_decide_eq_true (List.all_eq_true.mp sources e (OrderedMap.mem_values_of_get? held))
  have defines : ((stranded.1.defineNode env id stranded.2).toOption.any fun after =>
      decide (after.2.next ≤ UInt64.size) && decide (after.1.edges.size = 0) &&
        (after.1.node? id).all fun n => n.inputs.isEmpty) = true := by decide +kernel
  cases run : stranded.1.defineNode env id stranded.2 with
  | error e =>
    rw [run] at defines
    cases defines
  | ok after =>
    rw [run, Except.toOption, Option.any_some, Bool.and_eq_true, Bool.and_eq_true] at defines
    obtain ⟨⟨bound, edges⟩, without⟩ := defines
    obtain ⟨n, n', specs, found, -, redefined, again⟩ :=
      (defineNode_exact tended.toWellFormed tended.unused env id).2 _ _ run
        (of_decide_eq_true bound)
    rw [found, Option.any_some] at one
    rw [redefined.now, Option.all_some] at without
    exact ⟨tended.toWellFormed, tended.unused, by decide +kernel, after.1, after.2, rfl,
      of_decide_eq_true bound, ⟨n, n', specs, found, of_decide_eq_true one,
        List.isEmpty_iff.mp without, of_decide_eq_true edges, redefined⟩, quiet,
      again fun _ => quiet⟩

/-- A choice leads to the stack that it stands in, and so does a function with a result, by an edge
that comes later. -/
def detour : Workpiece :=
  let node (n : Nat) : NodeId := ⟨familyIdentity 0 n⟩
  (Workpiece.start "Detour" .standard (.ofFamily 0)).after
    ([.spawn ⟨.function (.method "Get" .bool), Eq.refl true⟩ default, .spawn ⟨.stack, Eq.refl true⟩ default,
      .push (node 2) none ⟨.branch, Eq.refl true⟩, .connectByName (node 5) "Then" (node 2) "In",
      .connectByName (node 0) "Out" (node 2) "In"].map
        fun edit => (⟨TypeDatabase.empty.toOracle, ∅⟩, edit))

/-- The choice has become a node that returns a result, and still has the outputs of a choice. When its
ports are defined the function is not found, for the edge that comes first goes round; when they are
defined again that edge is gone. -/
theorem defineNode_again_changes :
    ¬ ∀ (g : Graph) (env : DefinitionEnv) (id : NodeId) (supply supply' : IdSupply) (g' : Graph),
      g.WellFormed → (∀ u, g.Uses u → ¬ supply.Holds u) →
      g.defineNode env id supply = .ok (g', supply') → supply'.next ≤ UInt64.size →
      ∀ later, g'.defineNode env id later = .ok (g', later) := by
  intro always
  let env : DefinitionEnv := ⟨TypeDatabase.empty.toOracle, ∅⟩
  let id : NodeId := ⟨familyIdentity 0 5⟩
  let returning := detour.1.modifyNode id fun n => { n with kind := .leave }
  have lasts : detour.2.next ≤ UInt64.size := by decide +kernel
  have tended : detour.1.Tended detour.2 := (Workpiece.after_tends _ _).tended lasts
    (Workpiece.start_tended "Detour" .standard (.ofFamily 0))
  have single : ((detour.1.node? id).any fun n => n.kind.isStack = false) = true := by decide +kernel
  obtain ⟨n, found, single⟩ := (Option.any_eq_true _ _).mp single
  have formed : returning.WellFormed :=
    tended.toWellFormed.rekind found (of_decide_eq_true single).symm
  have unused : ∀ u, returning.Uses u → ¬ detour.2.Holds u := by
    intro u used
    refine tended.unused ?_
    have before : ∀ {k m}, returning.node? k = some m →
        ∃ m', detour.1.node? k = some m' ∧ m.ports = m'.ports := by
      intro k m foundM
      rw [node?_modifyNode] at foundM
      split at foundM
      · rename_i here
        obtain ⟨m', foundM', rfl⟩ := Option.map_eq_some_iff.mp foundM
        exact ⟨m', here ▸ foundM', rfl⟩
      · exact ⟨m, foundM, rfl⟩
    cases used with
    | node foundM =>
      obtain ⟨m', foundM', -⟩ := before foundM
      exact .node foundM'
    | port foundM member =>
      obtain ⟨m', foundM', ports⟩ := before foundM
      exact .port foundM' (ports ▸ member)
    | edge held => exact .edge held
  -- what the node has of inputs, once its ports are defined and once they are defined again
  have first : ((returning.defineNode env id detour.2).toOption.any fun after =>
      decide (after.2.next ≤ UInt64.size) &&
        (after.1.node? id).all fun n => n.inputs.isEmpty) = true := by decide +kernel
  have second : ((returning.defineNode env id detour.2).toOption.any fun after =>
      (after.1.defineNode env id after.2).toOption.any fun again =>
        (again.1.node? id).any fun n => !n.inputs.isEmpty) = true := by decide +kernel
  cases run : returning.defineNode env id detour.2 with
  | error e =>
    rw [run] at first
    cases first
  | ok after =>
    rw [run, Except.toOption, Option.any_some] at first second
    obtain ⟨bound, without⟩ := (Bool.and_eq_true _ _).mp first
    have same := always returning env id detour.2 after.2 after.1 formed unused run
      (of_decide_eq_true bound) after.2
    rw [same, Except.toOption, Option.any_some] at second
    obtain ⟨m, foundM, inputs⟩ := (Option.any_eq_true _ _).mp second
    rw [foundM, Option.all_some] at without
    rw [without] at inputs
    cases inputs

end Graph

end NodeScript
