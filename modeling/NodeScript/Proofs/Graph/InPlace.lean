import NodeScript.Proofs.Graph.Redefine

/-!
Nodes that show what was specified of their ports. Defining the ports of a node makes it show what
its kind defines, types and all.

Ports that are put in place where ports of the same names, directions and kinds have been. They keep
their identities, nothing vanishes, and nothing is taken from the supply: only types are new. To do
so again with the same types changes nothing.
-/

namespace NodeScript

/-! ### Ports that are shown -/

/-- What was specified of a port. -/
def Port.spec (p : Port) : PortSpec := ⟨p.name, p.direction, p.kind, p.type⟩

/-- The ports of a node are those of a list of specifications. -/
structure Node.Shows (n : Node) (specs : List PortSpec) : Prop where
  inputs : n.inputs.map Port.spec = specs.filter (·.direction = .input)
  outputs : n.outputs.map Port.spec = specs.filter (·.direction = .output)

instance (n : Node) (specs : List PortSpec) : Decidable (n.Shows specs) :=
  decidable_of_iff (n.inputs.map Port.spec = specs.filter (·.direction = .input) ∧
    n.outputs.map Port.spec = specs.filter (·.direction = .output))
    ⟨fun shown => ⟨shown.1, shown.2⟩, fun shown => ⟨shown.inputs, shown.outputs⟩⟩

variable {n : Node} {specs : List PortSpec}

theorem realizePorts_specs (node : NodeId) (specs : List PortSpec) (former : List Port)
    (supply : IdSupply) : (realizePorts node specs former supply).1.map Port.spec = specs := by
  induction specs generalizing former supply with
  | nil => rfl
  | cons spec rest ih =>
    have first : (spec.realize node former supply).1.spec = spec := by
      rcases realize_cases node spec former supply with ⟨q, left, -, name, direction, made⟩ | made
      · rw [made, Port.spec, name, direction]
      · rw [made]
        rfl
    simp only [realizePorts, List.map_cons, first, ih]

theorem Node.shows_withPorts (n : Node) (oracle : TypeOracle) {ports : List Port}
    (specified : ports.map Port.spec = specs) : (n.withPorts oracle ports).Shows specs := by
  subst specified
  constructor
  · simp only [withPorts, List.filter_map]
    rfl
  · simp only [withPorts, List.filter_map]
    rfl

namespace Graph

variable {g g' : Graph} {env : DefinitionEnv} {id : NodeId} {supply supply' : IdSupply}

theorem dropEdges_nil (g : Graph) : g.dropEdges [] = g := by
  have edges : g.edges.filter (fun _ e =>
      !(([] : List PortId).contains e.output.port || [].contains e.input.port)) = g.edges :=
    OrderedMap.filter_eq_self fun _ _ => rfl
  rw [dropEdges, edges]

/-- The ports of a node cannot be defined exactly where its kind cannot tell them, and for its reason. -/
theorem defineNode_error_iff {e : DefinitionError} (found : g.node? id = some n) :
    g.defineNode env id supply = .error e ↔
      n.kind.definePorts env g.vars (g.returnTypeOf? id) = .error e := by
  rw [defineNode, found]
  dsimp only
  cases n.kind.definePorts env g.vars (g.returnTypeOf? id) with
  | error e' => simp
  | ok specs => simp

/-- What is there when the ports of a node have been defined: the node with the ports of its kind,
and without the edges of the ports that have vanished. -/
theorem defineNode_made (found : g.node? id = some n)
    (run : g.defineNode env id supply = .ok (g', supply')) :
    ∃ specs, n.kind.definePorts env g.vars (g.returnTypeOf? id) = .ok specs ∧
      let realized := realizePorts id specs n.ports supply
      g' = Graph.dropEdges
        { g with nodes := g.nodes.insert id (n.withPorts env.oracle realized.1) }
        (realized.2.1.map (·.id)) ∧
      supply' = realized.2.2 := by
  unfold defineNode at run
  rw [found] at run
  dsimp only at run
  split at run
  · exact nomatch run
  · rename_i specs defined
    obtain ⟨rfl, rfl⟩ := Prod.mk.inj (Except.ok.inj run)
    exact ⟨specs, defined, rfl, rfl⟩

/-- A node whose ports have been defined shows what its kind defines. -/
theorem defineNode_shows (found : g.node? id = some n)
    (run : g.defineNode env id supply = .ok (g', supply')) :
    ∃ n' specs, g'.node? id = some n' ∧ n'.kind = n.kind ∧ n'.parent = n.parent ∧
      n.kind.definePorts env g.vars (g.returnTypeOf? id) = .ok specs ∧ n'.Shows specs := by
  obtain ⟨specs, defined, rfl, -⟩ := defineNode_made found run
  exact ⟨_, specs, OrderedMap.get?_insert_self, rfl, rfl, defined,
    n.shows_withPorts env.oracle (realizePorts_specs ..)⟩

end Graph

end NodeScript

namespace NodeScript

/-! ### Ports that stay in place -/

/-- Changes the kind and the type of a port to those of a specification. -/
def Port.retype (p : Port) (spec : PortSpec) : Port := { p with kind := spec.kind, type := spec.type }

/-- A port regardless of its type. -/
def Port.untyped (p : Port) : Port := { p with type := .unknown }

section Retyping

variable {p : Port} {spec : PortSpec} {ports : List Port} {specs : List PortSpec}

theorem Port.spec_retype (same : p.shape = spec.shape) : (p.retype spec).spec = spec := by
  obtain ⟨name, direction, -⟩ : p.name = spec.name ∧ p.direction = spec.direction ∧ _ := by
    simpa [shape, PortSpec.shape] using same
  simp only [Port.spec, retype, name, direction]

theorem Port.untyped_retype (same : p.shape = spec.shape) : (p.retype spec).untyped = p.untyped := by
  obtain ⟨-, -, kind⟩ : _ ∧ _ ∧ p.kind = spec.kind := by simpa [shape, PortSpec.shape] using same
  simp only [untyped, retype, kind]

/-- Ports are shaped as what they are specified to be. -/
theorem shapes_of_specs (specified : ports.map Port.spec = specs) :
    ports.map Port.shape = specs.map PortSpec.shape := by
  rw [← specified, List.map_map]
  rfl

/-- Directions and names are told from shapes. -/
theorem labels_of_shapes {α β : Type} {shape : α → PortShape} {shape' : β → PortShape} {xs : List α}
    {ys : List β} (same : xs.map shape = ys.map shape') :
    xs.map (fun x => ((shape x).2.1, (shape x).1)) =
      ys.map fun y => ((shape' y).2.1, (shape' y).1) := by
  have labels := congrArg (List.map fun shape : PortShape => (shape.2.1, shape.1)) same
  rwa [List.map_map, List.map_map] at labels

theorem zipWith_retype_self (specified : ports.map Port.spec = specs) :
    ports.zipWith Port.retype specs = ports := by
  rw [← specified, List.zipWith_map_right, List.zipWith_self]
  exact List.map_id' ports

theorem map_spec_zipWith (same : ports.map Port.shape = specs.map PortSpec.shape) :
    (ports.zipWith Port.retype specs).map Port.spec = specs := by
  induction ports generalizing specs with
  | nil => rw [List.map_eq_nil_iff.mp same.symm]; rfl
  | cons p rest ih =>
    cases specs with
    | nil => exact nomatch same
    | cons spec specs =>
      obtain ⟨first, others⟩ := List.cons.inj same
      rw [List.zipWith_cons_cons, List.map_cons, Port.spec_retype first, ih others]

theorem map_untyped_zipWith (same : ports.map Port.shape = specs.map PortSpec.shape) :
    (ports.zipWith Port.retype specs).map Port.untyped = ports.map Port.untyped := by
  induction ports generalizing specs with
  | nil => rfl
  | cons p rest ih =>
    cases specs with
    | nil => exact nomatch same
    | cons spec specs =>
      obtain ⟨first, others⟩ := List.cons.inj same
      rw [List.zipWith_cons_cons, List.map_cons, List.map_cons, Port.untyped_retype first, ih others]

end Retyping

/-! ### Realization -/

section Realizing

variable {spec : PortSpec} {specs : List PortSpec} {former ports : List Port} {p : Port}

/-- A specification is realized by a former port of its name and direction when there is one. -/
theorem realize_of_mem (node : NodeId) (supply : IdSupply) (member : p ∈ former)
    (name : p.name = spec.name) (direction : p.direction = spec.direction) :
    ∃ q rest, former.Perm (q :: rest) ∧ q.name = spec.name ∧ q.direction = spec.direction ∧
      spec.realize node former supply = (q.retype spec, rest, supply) := by
  unfold PortSpec.realize
  split
  · rename_i i place
    obtain ⟨bound, fits, -⟩ := List.findIdx?_eq_some_iff_getElem.mp place
    have found : former[i]? = some former[i] := List.getElem?_eq_getElem bound
    simp only [Bool.and_eq_true, decide_eq_true_eq] at fits
    refine ⟨former[i], takeOut former i, perm_takeOut found, fits.1, fits.2, ?_⟩
    rw [found]
    rfl
  · rename_i absent
    have other := List.findIdx?_eq_none_iff.mp absent p member
    simp [name, direction] at other

/-- Where the former ports are those that are specified, in whatever order and up to their types,
every one of them is kept. -/
theorem realizePorts_in_place (node : NodeId) (supply : IdSupply) (perm : former.Perm ports)
    (same : ports.map Port.shape = specs.map PortSpec.shape)
    (single : (specs.map fun spec => (spec.direction, spec.name)).Nodup) :
    realizePorts node specs former supply = (ports.zipWith Port.retype specs, [], supply) := by
  induction specs generalizing former ports with
  | nil =>
    obtain rfl := List.map_eq_nil_iff.mp same
    obtain rfl := perm.eq_nil
    rfl
  | cons spec specs ih =>
    cases ports with
    | nil => exact nomatch same
    | cons p rest =>
      obtain ⟨first, others⟩ := List.cons.inj same
      obtain ⟨name, direction, -⟩ : p.name = spec.name ∧ p.direction = spec.direction ∧ _ := by
        simpa [Port.shape, PortSpec.shape] using first
      obtain ⟨alone, single⟩ := List.nodup_cons.mp single
      obtain ⟨q, left, taken, nameQ, directionQ, result⟩ :=
        realize_of_mem node supply (perm.mem_iff.mpr (.head _)) name direction
      have sameLabels : rest.map (fun p => (p.direction, p.name)) =
          specs.map fun spec => (spec.direction, spec.name) := labels_of_shapes others
      -- no other port has the label of the first, so the one that is taken is the first
      obtain rfl : q = p := by
        rcases List.mem_cons.mp (perm.mem_iff.mp (taken.mem_iff.mpr (.head _))) with same | later
        · exact same
        · have listed := List.mem_map_of_mem (f := fun p : Port => (p.direction, p.name)) later
          rw [sameLabels, nameQ, directionQ] at listed
          exact absurd listed alone
      have remaining : left.Perm rest := (taken.symm.trans perm).cons_inv
      simp only [realizePorts, result, ih remaining others single, List.zipWith_cons_cons]

end Realizing

/-! ### Values of inputs -/

section Constants

variable {oracle : TypeOracle} {p : Port} {inputs : List Port} {k : PortId}

/-- A value that has been kept is kept again. -/
theorem keptConstant_again (oracle : TypeOracle) (p : Port) (former : Option Constant) :
    keptConstant oracle p (some (keptConstant oracle p former)) = keptConstant oracle p former := by
  cases former with
  | none => simp [keptConstant]
  | some value =>
    by_cases fits : (value.equals (oracle.defaultConstant p.type) || p.type = .unknown ||
        value.type = p.type) = true
    · have kept : keptConstant oracle p (some value) = value := if_pos fits
      rw [kept, kept]
    · have replaced : keptConstant oracle p (some value) = oracle.defaultConstant p.type :=
        if_neg fits
      rw [replaced]
      simp [keptConstant]

/-- Only the keys that are there before settle which are there afterwards. -/
theorem keys_redefineConstants_congr {former former' made made' : OrderedMap PortId Constant}
    (same : made.keys = made'.keys) :
    (redefineConstants oracle inputs former made).keys =
      (redefineConstants oracle inputs former' made').keys := by
  induction inputs generalizing former former' made made' with
  | nil => exact same
  | cons p rest ih =>
    rw [redefineConstants, redefineConstants]
    refine ih ?_
    rw [OrderedMap.keys_insert, OrderedMap.keys_insert, same]

theorem get?_redefineConstants_of_not_mem {former made : OrderedMap PortId Constant}
    (other : k ∉ inputs.map (·.id)) :
    (redefineConstants oracle inputs former made).get? k = made.get? k := by
  induction inputs generalizing former made with
  | nil => rfl
  | cons p rest ih =>
    obtain ⟨here, later⟩ := not_or.mp (mt List.mem_cons.mpr other)
    rw [redefineConstants, ih later, OrderedMap.get?_insert_of_ne here]

/-- Of inputs that are told apart by their identities each is given its own former value, as far as
that is kept. -/
theorem get?_redefineConstants {former made : OrderedMap PortId Constant}
    (distinct : (inputs.map (·.id)).Nodup) (member : p ∈ inputs) :
    (redefineConstants oracle inputs former made).get? p.id =
      some (keptConstant oracle p (former.get? p.id)) := by
  induction inputs generalizing former made with
  | nil => exact nomatch member
  | cons first rest ih =>
    obtain ⟨alone, distinct⟩ := List.nodup_cons.mp distinct
    rw [redefineConstants]
    rcases List.mem_cons.mp member with rfl | later
    · rw [get?_redefineConstants_of_not_mem alone, OrderedMap.get?_insert_self]
    · have other : p.id ≠ first.id := fun same =>
        alone (List.mem_map.mpr ⟨p, later, same⟩)
      rw [ih distinct later, OrderedMap.get?_erase, if_neg other]

/-- The values of inputs come out again if they, or the ones they came from, are redefined. Of inputs
with one identity the last counts, and that one starts without a value. -/
theorem get?_redefineConstants_again {former former' made made' : OrderedMap PortId Constant}
    (held : ∀ k ∈ inputs.map (·.id),
      former'.get? k = (redefineConstants oracle inputs former made).get? k ∨
        former'.get? k = former.get? k) :
    ∀ k ∈ inputs.map (·.id), (redefineConstants oracle inputs former' made').get? k =
      (redefineConstants oracle inputs former made).get? k := by
  induction inputs generalizing former former' made made' with
  | nil => exact fun k member => nomatch member
  | cons p rest ih =>
    intro k member
    rw [redefineConstants, redefineConstants]
    rw [redefineConstants] at held
    by_cases again : k ∈ rest.map (·.id)
    -- another input has the identity, and the value that this one takes is lost
    · refine ih (fun k later => ?_) k again
      rw [OrderedMap.get?_erase, OrderedMap.get?_erase]
      split
      · exact .inr rfl
      · exact held k (.tail _ later)
    · obtain rfl : k = p.id := (List.mem_cons.mp member).resolve_right again
      have before := held p.id (.head _)
      rw [get?_redefineConstants_of_not_mem again, OrderedMap.get?_insert, if_pos rfl] at before
      rw [get?_redefineConstants_of_not_mem again, get?_redefineConstants_of_not_mem again,
        OrderedMap.get?_insert, OrderedMap.get?_insert, if_pos rfl, if_pos rfl]
      rcases before with settled | unsettled
      · rw [settled, keptConstant_again]
      · rw [unsettled]

/-- To redefine the values of the same inputs again changes nothing. -/
theorem redefineConstants_again (oracle : TypeOracle) (inputs : List Port)
    (former : OrderedMap PortId Constant) :
    redefineConstants oracle inputs (redefineConstants oracle inputs former ∅) ∅ =
      redefineConstants oracle inputs former ∅ := by
  refine OrderedMap.ext_get? (keys_redefineConstants_congr rfl) fun k => ?_
  by_cases member : k ∈ inputs.map (·.id)
  · exact get?_redefineConstants_again (fun _ _ => .inl rfl) k member
  · rw [get?_redefineConstants_of_not_mem member, get?_redefineConstants_of_not_mem member]

end Constants

/-! ### Nodes -/

/-- Inputs and outputs are told apart by the way they face. -/
theorem filter_facing {α : Type} {face : α → PortDirection} {inputs outputs : List α}
    (inward : ∀ x ∈ inputs, face x = .input) (outward : ∀ x ∈ outputs, face x = .output) :
    (inputs ++ outputs).filter (face · = .input) = inputs ∧
      (inputs ++ outputs).filter (face · = .output) = outputs := by
  simp only [List.filter_append]
  constructor
  · rw [List.filter_eq_self.mpr fun x member => by simp [inward x member],
      List.filter_eq_nil_iff.mpr fun x member => by simp [outward x member], List.append_nil]
  · rw [List.filter_eq_nil_iff.mpr fun x member => by simp [inward x member],
      List.filter_eq_self.mpr fun x member => by simp [outward x member], List.nil_append]

/-- The inputs come before the outputs. -/
def InputsFirst (specs : List PortSpec) : Prop :=
  ∃ inputs outputs, specs = inputs ++ outputs ∧ (∀ spec ∈ inputs, spec.direction = .input) ∧
    ∀ spec ∈ outputs, spec.direction = .output

namespace Node

variable {n : Node} {oracle : TypeOracle} {specs : List PortSpec} {ports : List Port}

/-- The ports of a node that shows specifications, in their order. -/
theorem Shows.in_order (shown : n.Shows specs) (first : InputsFirst specs) :
    n.ports.map Port.spec = specs := by
  obtain ⟨inputs, outputs, rfl, inward, outward⟩ := first
  obtain ⟨front, back⟩ := filter_facing inward outward
  rw [Node.ports, List.map_append, shown.inputs, shown.outputs, front, back]

/-- Ports that are put in place with the inputs first stay in their order. -/
theorem ports_withPorts (n : Node) (oracle : TypeOracle) (specified : ports.map Port.spec = specs)
    (first : InputsFirst specs) : (n.withPorts oracle ports).ports = ports := by
  obtain ⟨_, _, rfl, faceIn, faceOut⟩ := first
  obtain ⟨inputs, outputs, rfl, rfl, rfl⟩ := List.map_eq_append_iff.mp specified
  have inward : ∀ p ∈ inputs, p.direction = .input := fun p member =>
    faceIn p.spec (List.mem_map_of_mem member)
  have outward : ∀ p ∈ outputs, p.direction = .output := fun p member =>
    faceOut p.spec (List.mem_map_of_mem member)
  obtain ⟨front, back⟩ := filter_facing inward outward
  simp only [withPorts, Node.ports, front, back]

/-- To put the same ports in place again changes nothing. -/
theorem withPorts_again (n : Node) (oracle : TypeOracle) (ports : List Port) :
    (n.withPorts oracle ports).withPorts oracle ports = n.withPorts oracle ports := by
  simp only [withPorts, redefineConstants_again]

end Node

/-- A node whose ports all stay is put in place, and the edges are left alone. -/
theorem Graph.defineNode_in_place {g : Graph} {id : NodeId} {n : Node} {env : DefinitionEnv}
    {specs : List PortSpec} {ports : List Port} {supply supply' : IdSupply}
    (found : g.node? id = some n)
    (defined : n.kind.definePorts env g.vars (g.returnTypeOf? id) = .ok specs)
    (realized : realizePorts id specs n.ports supply = (ports, [], supply')) :
    g.defineNode env id supply =
      .ok ({ g with nodes := g.nodes.insert id (n.withPorts env.oracle ports) }, supply') := by
  unfold defineNode
  rw [found]
  dsimp only
  rw [defined]
  dsimp only
  rw [realized, List.map_nil, dropEdges_nil]

end NodeScript
