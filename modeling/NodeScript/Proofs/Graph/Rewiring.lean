import NodeScript.Proofs.Graph.WellFormed

/-!
The two edits that make ports and edges: defining the ports of a node, and connecting two of them.
Ports that are put in place anew keep the edges of the ports they succeed, and an edge is made only
where the ports fit and have room for it.
-/

namespace NodeScript

namespace Graph

variable {g g' : Graph} {id i j k : NodeId} {n : Node} {p : Port} {supply supply' : IdSupply}
  {env : DefinitionEnv}

/-- A node has been defined: it has its new ports, and the edges at those that vanished are gone. -/
structure Defined (env : DefinitionEnv) (id : NodeId) (n : Node) (specs : List PortSpec)
    (ports vanished : List Port) (supply supply' : IdSupply) (g g' : Graph) : Prop where
  found : g.node? id = some n
  declared : n.kind.declaredPorts env g.vars (g.returnTypeOf? id) = .ok specs
  single : duplicatePort? [] specs = none
  realized : Realized id specs n.ports ports vanished supply supply'
  nodes : ∀ k, g'.node? k = if k = id then some (n.withPorts env.oracle ports) else g.node? k
  edges : ∀ k, g'.edge? k = (g.edge? k).filter fun e =>
    !((vanished.map (·.id)).contains e.output.port || (vanished.map (·.id)).contains e.input.port)

theorem defineNode_defined (run : g.defineNode env id supply = .ok (g', supply')) :
    ∃ n specs ports vanished, Defined env id n specs ports vanished supply supply' g g' := by
  unfold defineNode at run
  split at run
  · exact nomatch run
  · rename_i n found
    split at run
    · exact nomatch run
    · rename_i specs defined
      obtain ⟨declared, single⟩ := NodeKind.definePorts_ok defined
      have realized := realizePorts_realized id specs n.ports supply
      simp only [Except.ok.injEq, Prod.mk.injEq] at run
      obtain ⟨rfl, rfl⟩ := run
      exact ⟨n, specs, _, _, found, declared, single, realized, fun k => OrderedMap.get?_insert,
        fun k => OrderedMap.get?_filter⟩

namespace Defined

variable {specs : List PortSpec} {ports vanished : List Port}
  (defined : Defined env id n specs ports vanished supply supply' g g')

include defined

theorem now : g'.node? id = some (n.withPorts env.oracle ports) := by
  rw [defined.nodes, if_pos rfl]

/-- Edges that stay were there, and the ports at their ends have not vanished. -/
theorem staying {k : EdgeId} {e : Edge} (kept : g'.edge? k = some e) :
    g.edge? k = some e ∧ ∀ d, (e.tip d).port ∉ vanished.map (·.id) := by
  rw [defined.edges, Option.filter_eq_some_iff] at kept
  have clear : e.output.port ∉ vanished.map (·.id) ∧ e.input.port ∉ vanished.map (·.id) := by
    simpa using kept.2
  refine ⟨kept.1, fun d => ?_⟩
  cases d with
  | input => exact clear.2
  | output => exact clear.1

variable (tended : g.Tended supply) (lasts : supply'.next ≤ UInt64.size)

include tended

theorem builtIn : n.kind.isBuiltIn = true := tended.builtIn defined.found

theorem ported (lasts : supply'.next ≤ UInt64.size) :
    (n.withPorts env.oracle ports).Ported ∧ (n.withPorts env.oracle ports).ports.Perm ports := by
  have filed : n.id = id := tended.nodeFiled defined.found
  exact Realized.ported env.oracle (tended.ported defined.found) (filed.symm ▸ defined.realized)
    defined.single lasts fun q member => tended.unused (.port defined.found member)

include lasts

/-- The ends of the edges that stay are still there, and execution or values go through them as
before. -/
theorem narrowed : Narrowed g g' where
  edges kept := (defined.staying kept).1
  tips {k e d q} kept seen := by
    obtain ⟨ported, perm⟩ := defined.ported tended lasts
    obtain ⟨m, foundM, member, same⟩ := exists_of_portAt? seen
    by_cases here : (e.tip d).node = id
    · rw [here] at foundM
      obtain rfl := Option.some.inj (defined.found.symm.trans foundM)
      obtain ⟨p, inside, alike⟩ := defined.realized.alike (tended.flows defined.found)
        (defined.builtIn tended) defined.declared (Node.mem_ports_of_facing member)
        (same ▸ (defined.staying kept).2 d)
      refine ⟨p, ?_, alike⟩
      have direction := alike.direction.trans ((tended.ported defined.found).faces d q member)
      have listed := ported.find?_facing (perm.mem_iff.mpr inside)
      rwa [portAt?_eq (here ▸ defined.now), ← same, ← alike.id, ← direction]
    · refine ⟨q, ?_, rfl, rfl, Iff.rfl⟩
      rw [portAt?_eq foundM] at seen
      rw [portAt?_eq (by rw [defined.nodes, if_neg here, foundM]), seen]

theorem reshaped (linked : g'.Linked) : Reshaped id supply supply' g g' := by
  obtain ⟨ported, perm⟩ := defined.ported tended lasts
  refine ⟨defined.narrowed tended lasts, linked, fun {k m} foundK => ?_,
    fun {k m p} foundK member => ?_⟩
  · by_cases here : k = id
    · subst here
      obtain rfl := Option.some.inj (defined.now.symm.trans foundK)
      have builtIn := defined.builtIn tended
      exact ⟨ported, builtIn, fun p member => defined.realized.flows builtIn defined.declared p
        (perm.mem_iff.mp member), .inl ⟨n, defined.found⟩⟩
    · rw [defined.nodes, if_neg here] at foundK
      exact ⟨tended.ported foundK, tended.builtIn foundK, tended.flows foundK, .inl ⟨m, foundK⟩⟩
  · by_cases here : k = id
    · subst here
      obtain rfl := Option.some.inj (defined.now.symm.trans foundK)
      rcases defined.realized.origin (perm.mem_iff.mp member) with ⟨q, old, same⟩ | taken
      · exact .inl ⟨n, q, defined.found, old, same⟩
      · exact .inr ⟨rfl, taken⟩
    · rw [defined.nodes, if_neg here] at foundK
      exact .inl ⟨m, p, foundK, member, rfl⟩

end Defined

theorem Tended.defineNode (tended : g.Tended supply)
    (run : g.defineNode env id supply = .ok (g', supply')) (lasts : supply'.next ≤ UInt64.size) :
    g'.Tended supply' := by
  obtain ⟨extended, rework, -⟩ := defineNode_spec run
  obtain ⟨n, specs, ports, vanished, defined⟩ := defineNode_defined run
  have linked := rework.linked tended.toLinked
  exact tended.reshape (defined.reshaped tended lasts linked) extended lasts

section Connecting

variable {source target : Port} {fromPort toPort : PortId} {edge : EdgeId}

/-- What two ports fulfil that nothing keeps from being connected. -/
structure Connectable (g : Graph) (i j : NodeId) (source target : Port) : Prop where
  output : source.direction = .output
  input : target.direction = .input
  fit : source.canConnect target = true
  apart : i ≠ j
  enters : target.kind ≠ .execution → ∀ {k e}, g.edge? k = some e → e.input.port ≠ target.id
  leaves : source.kind = .execution → ∀ {k e}, g.edge? k = some e → e.output.port ≠ source.id
  new : ∀ {k e}, g.edge? k = some e → e.output.port = source.id → e.input.port ≠ target.id

theorem connectable_of_connectionFault? (free : g.connectionFault? i j source target = none) :
    g.Connectable i j source target := by
  unfold connectionFault? at free
  split_ifs at free with directions misfit same enters leaves new
  obtain ⟨output, input⟩ : source.direction = .output ∧ target.direction = .input := by
    simpa using directions
  have entering : ∀ {k e}, g.edge? k = some e → e.input.port = target.id → e ∈ g.edgesTo target.id :=
    fun found same => List.mem_filter.mpr ⟨OrderedMap.mem_values_of_get? found, by simpa using same⟩
  have leaving : ∀ {k e}, g.edge? k = some e → e.output.port = source.id →
      e ∈ g.edgesFrom source.id :=
    fun found same => List.mem_filter.mpr ⟨OrderedMap.mem_values_of_get? found, by simpa using same⟩
  refine ⟨output, input, by simpa using misfit, same, fun value {k e} found same => ?_,
    fun flow {k e} found same => ?_, fun {k e} found sameS sameT => ?_⟩
  · have single : target.acceptsMultiple = false := by
      cases kind : target.kind <;> simp_all [Port.acceptsMultiple]
    have none : g.edgesTo target.id = [] := by simpa [single] using enters
    exact absurd (entering found same) (by simp [none])
  · have single : source.acceptsMultiple = false := by
      simp [Port.acceptsMultiple, output, flow]
    have none : g.edgesFrom source.id = [] := by simpa [single] using leaves
    exact absurd (leaving found same) (by simp [none])
  · exact new (List.any_eq_true.mpr ⟨e, leaving found sameS, by simpa using sameT⟩)

/-- An edge has come between two ports that could be connected. -/
structure Joined (g g' : Graph) (i j : NodeId) (source target : Port) (edge : EdgeId) : Prop where
  leaves : ∃ a, g.node? i = some a ∧ source ∈ a.ports
  enters : ∃ b, g.node? j = some b ∧ target ∈ b.ports
  connectable : g.Connectable i j source target
  nodes : ∀ k, g'.node? k = g.node? k
  edges : ∀ k, g'.edge? k =
    if k = edge then some ⟨edge, source.ref, target.ref⟩ else g.edge? k

theorem connect_joined (run : g.connect i fromPort j toPort supply = .ok (edge, g', supply')) :
    edge = ⟨supply.fresh.1⟩ ∧ supply' = supply.fresh.2 ∧
      ∃ source target, Joined g g' i j source target edge ∧ source.id = fromPort ∧
        target.id = toPort := by
  unfold connect at run
  split at run
  · exact nomatch run
  · exact nomatch run
  · rename_i a b foundA foundB
    split at run
    · exact nomatch run
    · exact nomatch run
    · rename_i source target foundS foundT
      split at run
      · exact nomatch run
      · rename_i free
        simp only [Except.ok.injEq, Prod.mk.injEq] at run
        obtain ⟨rfl, rfl, rfl⟩ := run
        refine ⟨rfl, rfl, source, target, ⟨⟨a, foundA, List.mem_of_find?_eq_some foundS⟩,
          ⟨b, foundB, List.mem_of_find?_eq_some foundT⟩, connectable_of_connectionFault? free,
          fun _ => rfl, fun _ => OrderedMap.get?_insert⟩, ?_, ?_⟩
        · simpa using List.find?_some foundS
        · simpa using List.find?_some foundT

/-- The ends of the edge are as an edge requires. -/
theorem Joined.between (joined : Joined g g' i j source target edge) :
    Edge.between edge source target = .ok ⟨edge, source.ref, target.ref⟩ := by
  simp [Edge.between, joined.connectable.output, joined.connectable.input]

theorem WellFormed.portAt?_ref (formed : g.WellFormed) (found : g.node? i = some n)
    (member : p ∈ n.ports) : p.ref.node = i ∧ g.portAt? p.direction p.ref = some p := by
  have here : p.ref.node = i :=
    ((formed.ported found).owned p member).trans (formed.nodeFiled found)
  exact ⟨here, by rw [portAt?_eq (here ▸ found)]; exact (formed.ported found).find?_facing member⟩

namespace Joined

variable (joined : Joined g g' i j source target edge)

include joined

theorem portAt? (d : PortDirection) (ref : PortRef) : g'.portAt? d ref = g.portAt? d ref := by
  rw [Graph.portAt?, Graph.portAt?, joined.nodes]

theorem edge_cases {k : EdgeId} {e : Edge} (found : g'.edge? k = some e) :
    (k = edge ∧ e = ⟨edge, source.ref, target.ref⟩) ∨ g.edge? k = some e := by
  rw [joined.edges] at found
  split at found
  · rename_i same
    exact .inl ⟨same, (Option.some.inj found).symm⟩
  · exact .inr found

theorem linked (linked : g.Linked) : g'.Linked := by
  refine linked.of_links (fun k => by rw [joined.nodes]) fun found => ?_
  rcases joined.edge_cases found with ⟨rfl, rfl⟩ | old
  · rfl
  · exact linked.edgeFiled old

/-- The ends of the edge are ports that no other port shares the identity of. -/
theorem ends (formed : g.WellFormed) :
    (source.ref.node = i ∧ target.ref.node = j) ∧
      g.portAt? .output source.ref = some source ∧ g.portAt? .input target.ref = some target ∧
      (∀ {ref p}, g.portAt? .output ref = some p → ref.port = source.id → p = source) ∧
      ∀ {ref q}, g.portAt? .input ref = some q → ref.port = target.id → q = target := by
  obtain ⟨a, foundA, memberS⟩ := joined.leaves
  obtain ⟨b, foundB, memberT⟩ := joined.enters
  obtain ⟨nodeS, atS⟩ := formed.portAt?_ref foundA memberS
  obtain ⟨nodeT, atT⟩ := formed.portAt?_ref foundB memberT
  rw [joined.connectable.output] at atS
  rw [joined.connectable.input] at atT
  refine ⟨⟨nodeS, nodeT⟩, atS, atT, fun seen same => ?_, fun seen same => ?_⟩
  · obtain ⟨m, found, member, id⟩ := exists_of_portAt? seen
    exact (formed.port_eq found foundA (Node.mem_ports_of_facing member) memberS (id.trans same)).2
  · obtain ⟨m, found, member, id⟩ := exists_of_portAt? seen
    exact (formed.port_eq found foundB (Node.mem_ports_of_facing member) memberT (id.trans same)).2

/-- The new edge is compared with the old ones, which leave it the room it needs. -/
theorem wired (formed : g.WellFormed) : g'.Wired := by
  obtain ⟨⟨nodeS, nodeT⟩, atS, atT, isSource, isTarget⟩ := joined.ends formed
  have connectable := joined.connectable
  constructor
  · intro k e found
    rw [joined.portAt?, joined.portAt?]
    rcases joined.edge_cases found with ⟨rfl, rfl⟩ | old
    · refine ⟨source, target, atS, atT, connectable.fit, ?_⟩
      dsimp only
      rw [nodeS, nodeT]
      exact connectable.apart
    · exact formed.joined old
  · intro j k e f foundE foundF sameS sameT
    rcases joined.edge_cases foundE with ⟨rfl, rfl⟩ | oldE <;>
      rcases joined.edge_cases foundF with ⟨rfl, rfl⟩ | oldF
    · rfl
    · exact absurd sameT.symm (connectable.new oldF sameS.symm)
    · exact absurd sameT (connectable.new oldE sameS)
    · exact formed.distinct oldE oldF sameS sameT
  · intro j k e f q foundE foundF atE value same
    rw [joined.portAt?] at atE
    rcases joined.edge_cases foundE with ⟨rfl, rfl⟩ | oldE <;>
      rcases joined.edge_cases foundF with ⟨rfl, rfl⟩ | oldF
    · rfl
    · obtain rfl := Option.some.inj (atE.symm.trans atT)
      exact absurd same.symm (connectable.enters value oldF)
    · obtain rfl := isTarget atE same
      exact absurd same (connectable.enters value oldE)
    · exact formed.singleInput oldE oldF atE value same
  · intro j k e f p foundE foundF atE flow same
    rw [joined.portAt?] at atE
    rcases joined.edge_cases foundE with ⟨rfl, rfl⟩ | oldE <;>
      rcases joined.edge_cases foundF with ⟨rfl, rfl⟩ | oldF
    · rfl
    · obtain rfl := Option.some.inj (atE.symm.trans atS)
      exact absurd same.symm (connectable.leaves flow oldF)
    · obtain rfl := isSource atE same
      exact absurd same (connectable.leaves flow oldE)
    · exact formed.singleOutput oldE oldF atE flow same

end Joined

theorem Tended.join (tended : g.Tended supply)
    (joined : Joined g g' i j source target ⟨supply.fresh.1⟩)
    (lasts : supply.fresh.2.next ≤ UInt64.size) : g'.Tended supply.fresh.2 := by
  have taken := IdSupply.taken_fresh (IdSupply.Extends.refl supply.fresh.2)
  refine ⟨⟨joined.linked tended.toLinked, joined.wired tended.toWellFormed, ?_, ?_⟩, ?_, ?_, ?_⟩
  · exact fun found => tended.ported (joined.nodes _ ▸ found)
  · exact fun foundN foundM => tended.apart (joined.nodes _ ▸ foundN) (joined.nodes _ ▸ foundM)
  · exact fun found => tended.builtIn (joined.nodes _ ▸ found)
  · exact fun found => tended.flows (joined.nodes _ ▸ found)
  · intro u used
    have old : ∀ {u}, g.Uses u → ¬ supply.fresh.2.Holds u := fun used held =>
      tended.unused used ((IdSupply.extends_fresh supply).holds held)
    cases used with
    | node found => exact old (.node (joined.nodes _ ▸ found))
    | port found member => exact old (.port (joined.nodes _ ▸ found) member)
    | edge found =>
      rcases joined.edge_cases found with ⟨rfl, -⟩ | before
      · exact taken.not_holds (IdSupply.extends_fresh supply) lasts
      · exact old (.edge before)

end Connecting

end Graph

end NodeScript
