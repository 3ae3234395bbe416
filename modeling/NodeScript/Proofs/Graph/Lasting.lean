import NodeScript.Proofs.Graph.Edits
import NodeScript.Proofs.Graph.InPlace
import NodeScript.Proofs.Graph.Removal

/-!
What edits of graphs never touch. A node keeps its place, and a node that is no call keeps its kind
and its ports too, for as long as it is there. Where its ports come from is told by the graph at the
time when they were defined: the function that execution reached the node from then.
-/

namespace NodeScript

/-- What no edit touches of a node that stays: where it stands, and its kind and ports unless it is a
call. -/
def Node.fixture (n : Node) : Option NodeId × Option (NodeKind × List Port × List Port) :=
  (n.parent, if n.kind.call?.isSome then none else some (n.kind, n.inputs, n.outputs))

theorem Node.fixture_of_not_call {n m : Node} (same : m.fixture = n.fixture)
    (single : n.kind.call? = none) :
    m.parent = n.parent ∧ m.kind = n.kind ∧ m.inputs = n.inputs ∧ m.outputs = n.outputs := by
  obtain ⟨parent, rest⟩ := Prod.mk.inj same
  rw [single, Option.isSome_none, if_neg Bool.false_ne_true] at rest
  split at rest
  · exact nomatch rest
  · obtain ⟨kind, ports⟩ := Prod.mk.inj (Option.some.inj rest)
    obtain ⟨inputs, outputs⟩ := Prod.mk.inj ports
    exact ⟨parent, kind, inputs, outputs⟩

namespace Graph

variable {g g' g'' : Graph} {id k stack : NodeId} {n : Node} {env : DefinitionEnv}
  {supply supply' : IdSupply}

/-- A node that is there after an edit was there before, and no edit has touched what it keeps. -/
def KeepsNode (g g' : Graph) (k : NodeId) : Prop :=
  ∀ n', g'.node? k = some n' → ∃ n, g.node? k = some n ∧ n.fixture = n'.fixture

/-- An edit that brings no nodes and touches nothing that nodes keep. -/
def Lasts (g g' : Graph) : Prop := ∀ k, g.KeepsNode g' k

theorem KeepsNode.of_eq (same : g'.node? k = g.node? k) : g.KeepsNode g' k :=
  fun n' found => ⟨n', same ▸ found, rfl⟩

theorem KeepsNode.trans (first : g.KeepsNode g' k) (second : g'.KeepsNode g'' k) :
    g.KeepsNode g'' k := by
  intro n'' found
  obtain ⟨n', found', same'⟩ := second n'' found
  obtain ⟨n, found, same⟩ := first n' found'
  exact ⟨n, found, same.trans same'⟩

namespace Lasts

theorem refl (g : Graph) : g.Lasts g := fun _ => .of_eq rfl

theorem trans (first : g.Lasts g') (second : g'.Lasts g'') : g.Lasts g'' := fun k =>
  (first k).trans (second k)

theorem modify {change : Node → Node} (kept : ∀ n, (change n).fixture = n.fixture) :
    g.Lasts (g.modifyNode id change) := by
  intro k n' found
  rw [node?_modifyNode] at found
  split at found
  · rename_i same
    subst same
    obtain ⟨n, before, rfl⟩ := Option.map_eq_some_iff.mp found
    exact ⟨n, before, (kept n).symm⟩
  · exact ⟨n', found, rfl⟩

/-- Edits of a call that stays a call where it stood. -/
theorem of_call (rework : Reworked id g g') (call : (g.node? id).any (·.kind.call?.isSome) = true)
    (call' : (g'.node? id).any (·.kind.call?.isSome) = true) : g.Lasts g' := by
  intro k n' found'
  by_cases same : k = id
  · subst same
    obtain ⟨n, found, links⟩ := exists_of_links rework.links found'
    rw [found, Option.any_some] at call
    rw [found', Option.any_some] at call'
    have parent : n.parent = n'.parent := congrArg NodeLinks.parent links
    exact ⟨n, found, by rw [Node.fixture, Node.fixture, if_pos call, if_pos call', parent]⟩
  · exact ⟨n', rework.others k same ▸ found', rfl⟩

theorem foldl {α : Type} {step : Graph → α → Graph} (each : ∀ g x, Lasts g (step g x))
    (items : List α) (g : Graph) : g.Lasts (items.foldl step g) := by
  induction items generalizing g with
  | nil => exact .refl g
  | cons x rest ih => exact (each g x).trans (ih (step g x))

end Lasts

theorem change_lasts {edit : Node → Node} (run : g.change id edit = .ok g')
    (kept : ∀ n, (edit n).fixture = n.fixture) : g.Lasts g' := by
  unfold change at run
  split at run
  · exact nomatch run
  · obtain rfl := Except.ok.inj run
    exact .modify kept

theorem changeUnlocked_lasts {edit : Node → Node} (run : g.changeUnlocked id edit = .ok g')
    (kept : ∀ n, (edit n).fixture = n.fixture) : g.Lasts g' := by
  unfold changeUnlocked at run
  split at run
  · exact nomatch run
  · split at run
    · exact nomatch run
    · obtain rfl := Except.ok.inj run
      exact .modify kept

theorem setConstant_lasts {input : String} {value : Constant}
    (run : g.setConstant id input value = .ok g') : g.Lasts g' := by
  unfold setConstant at run
  split at run
  · exact nomatch run
  · split at run
    · exact nomatch run
    · obtain rfl := Except.ok.inj run
      exact .modify fun _ => rfl

/-- A call that has been inferred is a call. -/
theorem inferNode_call (env : DefinitionEnv) (supply : IdSupply)
    (call : (g.node? id).any (·.kind.call?.isSome) = true) :
    ((g.inferNode env id supply).2.1.node? id).any (·.kind.call?.isSome) = true := by
  unfold inferNode
  split
  · exact call
  · rename_i n found
    split
    · split
      · exact call
      · split
        · exact call
        · dsimp only
          generalize bind : g.modifyNode id _ = bound
          have there : ∃ m, bound.node? id = some m ∧ m.kind.call?.isSome = true := by
            rw [← bind]
            exact ⟨_, by rw [node?_modifyNode, if_pos rfl, found]; rfl, rfl⟩
          obtain ⟨m, foundM, isCall⟩ := there
          split
          · rw [foundM]
            exact isCall
          · rename_i run
            obtain ⟨m', _, found', kind, -⟩ := defineNode_shows foundM run
            have after : m'.kind.call?.isSome = true := kind ▸ isCall
            split <;> (rw [found']; exact after)
    · exact call

theorem inferNode_lasts (env : DefinitionEnv) (supply : IdSupply)
    (call : (g.node? id).any (·.kind.call?.isSome) = true) :
    g.Lasts (g.inferNode env id supply).2.1 :=
  .of_call (inferNode_spec g env id supply).2 call (inferNode_call env supply call)

theorem setCallMethod_lasts {method : MethodRef}
    (run : g.setCallMethod env id method supply = (.ok (), g', supply')) : g.Lasts g' := by
  obtain ⟨-, rework, call'⟩ := setCallMethod_spec run
  refine .of_call rework ?_ call'
  unfold setCallMethod at run
  split at run
  · exact nomatch (Prod.mk.inj run).1
  · rename_i n found
    split at run
    · rename_i decl call
      rw [found, Option.any_some, call]
      rfl
    · exact nomatch (Prod.mk.inj run).1

theorem forget_lasts (g : Graph) (n : Node) (id : NodeId) : g.Lasts (g.forget n id) := by
  intro k n' found
  rw [node?_forget] at found
  split at found
  · obtain ⟨m, before, rfl⟩ := Option.map_eq_some_iff.mp found
    exact ⟨m, before, rfl⟩
  · exact ⟨n', found, rfl⟩

theorem removeWithin_lasts (depth : Nat) (g : Graph) (id : NodeId) :
    g.Lasts (removeWithin depth g id) := by
  induction depth generalizing g id with
  | zero => exact .refl g
  | succ depth ih =>
    rw [removeWithin]
    split
    · exact .refl g
    · rename_i n found
      have erased : g.Lasts { g with nodes := g.nodes.erase id } := by
        intro k n' left
        have left : (g.nodes.erase id).get? k = some n' := left
        rw [OrderedMap.get?_erase] at left
        split at left
        · cases left
        · exact ⟨n', left, rfl⟩
      exact (erased.trans (Lasts.foldl ih n.children _)).trans (forget_lasts _ n id)

theorem addNode_keeps (other : k ≠ n.id) : g.KeepsNode (g.addNode n) k :=
  .of_eq (by rw [node?_addNode, if_neg other])

theorem stackNode_keeps {place : Nat} (other : k ≠ n.id) :
    g.KeepsNode (g.stackNode n stack place) k := by
  have held : (g.addNode n).Lasts (g.stackNode n stack place) := .modify fun _ => rfl
  exact (addNode_keeps other).trans (held k)

/-- A node that comes to a stack is there, whatever it may hold should the stack have its identity. -/
theorem stackNode_arrives (g : Graph) (n : Node) (stack : NodeId) (place : Nat) :
    ∃ m, (g.stackNode n stack place).node? n.id = some m ∧ m.kind = n.kind ∧ m.parent = n.parent ∧
      m.ports = n.ports := by
  have added : (g.addNode n).node? n.id = some n := by rw [node?_addNode, if_pos rfl]
  rw [stackNode, node?_modifyNode]
  by_cases same : n.id = stack
  · rw [if_pos same, ← same, added]
    exact ⟨_, rfl, rfl, rfl, rfl⟩
  · rw [if_neg same]
    exact ⟨n, added, rfl, rfl, rfl⟩

section Owners

/-- Going back along execution is told by the kinds of the nodes and where each is entered from. -/
theorem ownerWithin_congr
    (alike : ∀ k, (g'.node? k).map (fun n => (n.kind, g'.previous? n)) =
      (g.node? k).map fun n => (n.kind, g.previous? n))
    (steps : Nat) (id : NodeId) : g'.ownerWithin steps id = g.ownerWithin steps id := by
  induction steps generalizing id with
  | zero => rfl
  | succ steps ih =>
    have here := alike id
    have later : g'.ownerWithin steps = g.ownerWithin steps := funext ih
    rw [ownerWithin, ownerWithin, later]
    cases found : g.node? id with
    | none =>
      rw [found, Option.map_none, Option.map_eq_none_iff] at here
      rw [here]
    | some n =>
      rw [found, Option.map_some, Option.map_eq_some_iff] at here
      obtain ⟨n', found', same⟩ := here
      obtain ⟨kind, previous⟩ := Prod.mk.inj same
      rw [found']
      dsimp only
      rw [kind, previous]

theorem returnTypeOf?_eq (g : Graph) (id : NodeId) : g.returnTypeOf? id =
    (g.owningFunction? id).bind fun f =>
      (((g.node? f).map Node.kind).bind NodeKind.function?).map (·.returnType) := by
  rw [returnTypeOf?]
  cases g.owningFunction? id with
  | none => rfl
  | some f =>
    cases found : g.node? f with
    | none => simp [found]
    | some n => cases function : n.kind.function? <;> simp [found, function]

/-- What stands in a function itself runs in it. -/
theorem returnTypeOf?_of_function {holder : Node} {decl : FunctionDecl}
    (found : g.node? id = some n) (single : n.kind.isStack = false) (stands : n.parent = some stack)
    (foundS : g.node? stack = some holder) (function : holder.kind = .function decl) :
    g.returnTypeOf? id = some decl.returnType := by
  have owner : g.owningFunction? id = some stack := by
    have some_nodes : ∃ size, g.nodes.size = size + 1 := by
      have member := OrderedMap.mem_keys_of_get? found
      rw [← OrderedMap.length_keys]
      exact Nat.exists_eq_add_one.mpr (List.length_pos_of_mem member)
    obtain ⟨size, counted⟩ := some_nodes
    have previous : g.previous? n = some stack := by rw [previous?, single]; exact stands
    rw [owningFunction?, counted, ownerWithin, found]
    dsimp only
    split
    · rename_i kind
      rw [kind] at single
      exact nomatch single
    · rw [previous, Option.bind_some, ownerWithin, foundS]
      dsimp only
      rw [function]
  rw [returnTypeOf?_eq, owner, Option.bind_some, foundS, Option.map_some, function]
  rfl

theorem realizePorts_fresh (node : NodeId) (specs : List PortSpec) (supply : IdSupply) :
    (realizePorts node specs [] supply).2.1 = [] := by
  induction specs generalizing supply with
  | nil => rfl
  | cons spec rest ih => exact ih supply.fresh.2

/-- The ports of a node that is no stack do not count for the function that execution reaches it
from, as long as the other nodes are entered as before. -/
theorem returnTypeOf?_of_entered {oracle : TypeOracle} {ports : List Port}
    (found : g.node? id = some n) (single : n.kind.isStack = false)
    (nodes : g'.nodes = g.nodes.insert id (n.withPorts oracle ports))
    (enters : ∀ k m, k ≠ id → g.node? k = some m → g'.previous? m = g.previous? m) :
    g'.returnTypeOf? id = g.returnTypeOf? id := by
  have node? : ∀ k, g'.node? k = if k = id then some (n.withPorts oracle ports) else g.node? k := by
    intro k
    rw [Graph.node?, nodes]
    exact OrderedMap.get?_insert
  have alike : ∀ k, (g'.node? k).map (fun n => (n.kind, g'.previous? n)) =
      (g.node? k).map fun n => (n.kind, g.previous? n) := by
    intro k
    rw [node?]
    by_cases same : k = id
    · -- the new ports do not count, for the node is entered from where it stands
      have previous : g'.previous? (n.withPorts oracle ports) = g.previous? n := by
        rw [previous?, previous?, single]
        have single' : (n.withPorts oracle ports).kind.isStack = false := single
        rw [single']
        rfl
      rw [if_pos same, same, found, Option.map_some, Option.map_some, previous]
      rfl
    · rw [if_neg same]
      cases foundK : g.node? k with
      | none => rfl
      | some m => rw [Option.map_some, Option.map_some, enters k m same foundK]
  have size : g'.nodes.size = g.nodes.size := by
    have present := OrderedMap.contains_eq_true_iff.mpr (OrderedMap.mem_keys_of_get? found)
    rw [nodes, OrderedMap.size, OrderedMap.size, OrderedMap.insert_of_contains present]
    exact List.length_map _
  have owner : g'.owningFunction? id = g.owningFunction? id := by
    rw [owningFunction?, owningFunction?, size, ownerWithin_congr alike]
  have kinds : ∀ k, (g'.node? k).map Node.kind = (g.node? k).map Node.kind := by
    intro k
    have here := congrArg (Option.map Prod.fst) (alike k)
    simpa only [Option.map_map, Function.comp_def] using here
  simp only [returnTypeOf?_eq, owner, kinds]

/-- A node without ports is defined in its place, and the edges are left alone. -/
theorem defineNode_bare (found : g.node? id = some n) (bare : n.ports = [])
    (run : g.defineNode env id supply = .ok (g', supply')) :
    ∃ specs ports, n.kind.definePorts env g.vars (g.returnTypeOf? id) = .ok specs ∧
      ports.map Port.spec = specs ∧
      g' = { g with nodes := g.nodes.insert id (n.withPorts env.oracle ports) } := by
  obtain ⟨specs, defined, made, -⟩ := defineNode_made found run
  rw [bare, realizePorts_fresh, List.map_nil, dropEdges_nil] at made
  exact ⟨specs, _, defined, realizePorts_specs id specs [] supply, made⟩

/-- Defining the ports of a new node that is no stack changes nothing of where execution comes
from. -/
theorem returnTypeOf?_of_defined (found : g.node? id = some n) (bare : n.ports = [])
    (single : n.kind.isStack = false) (run : g.defineNode env id supply = .ok (g', supply')) :
    g'.returnTypeOf? id = g.returnTypeOf? id := by
  obtain ⟨-, ports, -, -, made⟩ := defineNode_bare found bare run
  refine returnTypeOf?_of_entered found single (congrArg Graph.nodes made) fun k m _ _ => ?_
  rw [made]
  rfl

end Owners

end Graph

end NodeScript
