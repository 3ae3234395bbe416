import NodeScript.Graph.Define
import NodeScript.Proofs.OrderedMap

/-!
Graphs whose nodes have the ports that their kinds define. In such a graph the outputs of a choice
are known by their names, and going by names leads where execution goes on.
-/

namespace NodeScript

/-- What a kind says of a port, apart from its type. -/
abbrev PortShape := String × PortDirection × PortKind

def Port.shape (p : Port) : PortShape := (p.name, p.direction, p.kind)

def PortSpec.shape (p : PortSpec) : PortShape := (p.name, p.direction, p.kind)

/-- The ports of a node are those that its kind defines in a function with a result. -/
def Node.HasPorts (env : DefinitionEnv) (vars : OrderedMap VariableId VariableDecl)
    (returnType : Option TypeHandle) (n : Node) : Prop :=
  match n.kind.definePorts env vars returnType with
  | .ok specs =>
    n.inputs.map Port.shape = (specs.filter (·.direction = .input)).map PortSpec.shape ∧
      n.outputs.map Port.shape = (specs.filter (·.direction = .output)).map PortSpec.shape
  | .error _ => False

instance (env : DefinitionEnv) (vars : OrderedMap VariableId VariableDecl)
    (returnType : Option TypeHandle) (n : Node) : Decidable (n.HasPorts env vars returnType) := by
  unfold Node.HasPorts
  split <;> infer_instance

/-- Whether extensions have no part in a kind. -/
def NodeKind.isBuiltIn : NodeKind → Bool
  | .custom _ _ => false
  | _ => true

/-- A graph of nodes of built-in kinds, each filed under its identity and with the ports that its
kind defines. -/
structure Graph.Standard (env : DefinitionEnv) (g : Graph) : Prop where
  filed : ∀ {id n}, g.node? id = some n → n.id = id
  builtIn : ∀ {id n}, g.node? id = some n → n.kind.isBuiltIn = true
  ports : ∀ {id n}, g.node? id = some n → ∃ returnType, n.HasPorts env g.vars returnType

/-- The names of the outputs that execution leaves a choice through. -/
def NodeKind.exitNames : NodeKind → List String
  | .branch => ["Then", "Else"]
  | .select cases => cases.map caseOutput ++ ["Default"]
  | _ => []

theorem duplicatePort?_eq_none {seen : List (PortDirection × String)} {specs : List PortSpec}
    (single : duplicatePort? seen specs = none) :
    (∀ p ∈ specs, (p.direction, p.name) ∉ seen) ∧
      (specs.map fun p => (p.direction, p.name)).Nodup := by
  induction specs generalizing seen with
  | nil => simp
  | cons p rest ih =>
    rw [duplicatePort?] at single
    split at single
    · simp at single
    · rename_i new
      obtain ⟨others, nodup⟩ := ih single
      have new : (p.direction, p.name) ∉ seen := by simpa using new
      refine ⟨List.forall_mem_cons.mpr ⟨new, fun q member => ?_⟩, ?_⟩
      · exact fun earlier => others q member (.tail _ earlier)
      · rw [List.map_cons, List.nodup_cons]
        refine ⟨fun again => ?_, nodup⟩
        obtain ⟨q, member, same⟩ := List.mem_map.mp again
        exact others q member (same ▸ .head _)

theorem NodeKind.definePorts_ok {kind : NodeKind} {env : DefinitionEnv}
    {vars : OrderedMap VariableId VariableDecl} {returnType : Option TypeHandle}
    {specs : List PortSpec} (defined : kind.definePorts env vars returnType = .ok specs) :
    kind.declaredPorts env vars returnType = .ok specs ∧ duplicatePort? [] specs = none := by
  unfold definePorts at defined
  split at defined
  · simp at defined
  · split at defined
    · simp at defined
    · obtain rfl := Except.ok.inj defined
      exact ⟨by assumption, by assumption⟩

/-- No two outputs that a kind defines share their name. -/
theorem NodeKind.nodup_outputs {kind : NodeKind} {env : DefinitionEnv}
    {vars : OrderedMap VariableId VariableDecl} {returnType : Option TypeHandle}
    {specs : List PortSpec} (defined : kind.definePorts env vars returnType = .ok specs) :
    ((specs.filter (·.direction = .output)).map (·.name)).Nodup := by
  have single := (NodeKind.definePorts_ok defined).2
  have nodup := List.pairwise_map.mp (duplicatePort?_eq_none single).2
  refine List.pairwise_map.mpr ((nodup.filter _).imp_of_mem fun {p q} memberP memberQ differ same => ?_)
  have outputP : p.direction = .output := by simpa using (List.mem_filter.mp memberP).2
  have outputQ : q.direction = .output := by simpa using (List.mem_filter.mp memberQ).2
  exact differ (by rw [outputP, outputQ, same])

/-- A choice has its outputs for execution in the order of their names, and nothing else. -/
theorem Node.HasPorts.outputs {n : Node} {env : DefinitionEnv}
    {vars : OrderedMap VariableId VariableDecl} {returnType : Option TypeHandle}
    (placed : n.HasPorts env vars returnType) (choice : n.kind.isBranching = true) :
    n.outputs.map Port.shape = n.kind.exitNames.map (·, .output, .execution) ∧
      n.kind.exitNames.Nodup := by
  unfold Node.HasPorts at placed
  split at placed
  · rename_i specs defined
    have nodup := NodeKind.nodup_outputs defined
    have declared := (NodeKind.definePorts_ok defined).1
    have names : specs.filter (·.direction = .output) =
        n.kind.exitNames.map PortSpec.execOutput := by
      cases kind : n.kind with
      | branch =>
        rw [kind] at declared
        obtain rfl := Except.ok.inj declared
        decide
      | select cases =>
        rw [kind] at declared
        obtain rfl := Except.ok.inj declared
        simp [NodeKind.exitNames, PortSpec.dataInput, PortSpec.execOutput, Function.comp_def]
      | _ => simp [kind, NodeKind.isBranching] at choice
    rw [names] at placed nodup
    refine ⟨placed.2.trans ?_, ?_⟩
    · rw [List.map_map]
      rfl
    · rw [List.map_map] at nodup
      simpa [Function.comp_def, PortSpec.execOutput] using nodup
  · exact placed.elim

/-- Only stacks have an output by which they go on themselves. -/
theorem NodeKind.isStack_of_out {kind : NodeKind} {env : DefinitionEnv}
    {vars : OrderedMap VariableId VariableDecl} {returnType : Option TypeHandle}
    {specs : List PortSpec} {spec : PortSpec} (builtIn : kind.isBuiltIn = true)
    (declared : kind.declaredPorts env vars returnType = .ok specs) (member : spec ∈ specs)
    (output : spec.direction = .output) (out : spec.name = "Out") : kind.isStack = true := by
  have notCase : ∀ label, caseOutput label ≠ "Out" := by
    intro label same
    have first := congrArg (fun text => text.toList.head?) same
    simp [caseOutput] at first
  cases kind with
  | stack | loopStack | function => rfl
  | custom => exact absurd builtIn Bool.false_ne_true
  | constant | this | repeated | forEach | branch | select | binary | unary =>
    obtain rfl := Except.ok.inj declared
    simp only [List.cons_append, List.mem_cons, List.mem_append, List.mem_map, List.not_mem_nil] at member
    grind [PortSpec.dataInput, PortSpec.dataOutput, PortSpec.execOutput, PortSpec.instanceOutput]
  | getVariable | setVariable | call | leave =>
    unfold declaredPorts at declared
    grind [callPorts, PortSpec.dataInput, PortSpec.dataOutput, PortSpec.instanceInput]

namespace Graph.Standard

theorem of_entries {env : DefinitionEnv} {g : Graph}
    (proper : ∀ entry ∈ g.nodes.entries, entry.2.id = entry.1 ∧ entry.2.kind.isBuiltIn = true ∧
      entry.2.HasPorts env g.vars none) : g.Standard env where
  filed found := (proper _ (OrderedMap.get?_eq_some_iff.mp found)).1
  builtIn found := (proper _ (OrderedMap.get?_eq_some_iff.mp found)).2.1
  ports found := ⟨none, (proper _ (OrderedMap.get?_eq_some_iff.mp found)).2.2⟩

variable {env : DefinitionEnv} {g : Graph} {id : NodeId} {n : Node}

theorem isStack_of_out {p : Port} (standard : g.Standard env) (found : g.node? id = some n)
    (out : n.output? "Out" = some p) : n.kind.isStack = true := by
  have builtIn := standard.builtIn found
  obtain ⟨_, placed⟩ := standard.ports found
  unfold Node.HasPorts at placed
  split at placed
  · rename_i specs defined
    have shape : p.shape ∈ (specs.filter (·.direction = .output)).map PortSpec.shape :=
      placed.2 ▸ List.mem_map_of_mem (List.mem_of_find?_eq_some out)
    obtain ⟨spec, member, same⟩ := List.mem_map.mp shape
    obtain ⟨inside, output⟩ := List.mem_filter.mp member
    have name : p.name = "Out" := by simpa using List.find?_some out
    have named : spec.name = "Out" := (congrArg Prod.fst same).trans name
    exact NodeKind.isStack_of_out builtIn (NodeKind.definePorts_ok defined).1 inside
      (by simpa using output) named
  · exact placed.elim

theorem nodup_exitNames (standard : g.Standard env) (found : g.node? id = some n)
    (choice : n.kind.isBranching = true) : n.kind.exitNames.Nodup := by
  obtain ⟨_, placed⟩ := standard.ports found
  exact (placed.outputs choice).2

/-- Where execution goes on behind a choice can be told from the names of its outputs. -/
theorem exits (standard : g.Standard env) (found : g.node? id = some n)
    (choice : n.kind.isBranching = true) :
    (n.execOutputs.map fun p => g.portTarget? p.id) = n.kind.exitNames.map (g.execTarget? n.id) := by
  obtain ⟨_, placed⟩ := standard.ports found
  obtain ⟨shapes, nodup⟩ := placed.outputs choice
  have shape : ∀ p ∈ n.outputs, p.direction = .output ∧ p.kind = .execution := by
    intro p member
    have := shapes ▸ List.mem_map_of_mem (f := Port.shape) member
    obtain ⟨_, -, same⟩ := List.mem_map.mp this
    simp only [Port.shape, Prod.mk.injEq] at same
    exact ⟨same.2.1.symm, same.2.2.symm⟩
  have all : n.execOutputs = n.outputs :=
    List.filter_eq_self.mpr fun p member => by simp [shape p member]
  have names : n.outputs.map (·.name) = n.kind.exitNames := by
    simpa [Port.shape, Function.comp_def] using congrArg (List.map Prod.fst) shapes
  rw [all, ← names, List.map_map]
  refine List.map_congr_left fun p member => ?_
  have single : (n.outputs.map (·.name)).Nodup := names ▸ nodup
  have named : n.output? p.name = some p := (find?_key_iff single).mpr ⟨member, rfl⟩
  simp [execTarget?, standard.filed found, found, named]

end Graph.Standard

end NodeScript
