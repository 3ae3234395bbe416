import NodeScript.Proofs.Graph.Rewiring
import NodeScript.Proofs.Graph.Rollback
import NodeScript.Typing.TypeDatabase

/-!
Histories of graphs. Whatever edits are made to a new graph, one after the other, with whatever is
known about types when each of them is made, and whether they succeed or not, the graph is
well-formed in the end.
-/

namespace NodeScript

/-- The kinds that no extension defines. -/
abbrev BuiltInKind := { kind : NodeKind // kind.isBuiltIn = true }

/-- An edit of a graph. -/
inductive GraphEdit where
  | spawn (kind : BuiltInKind) (position : Position)
  | push (stack : NodeId) (index : Option Nat) (kind : BuiltInKind)
  | remove (node : NodeId)
  | define (node : NodeId)
  | setCallMethod (node : NodeId) (method : MethodRef)
  | setConstant (node : NodeId) (input : String) (value : Constant)
  | connect (fromNode : NodeId) (fromPort : PortId) (toNode : NodeId) (toPort : PortId)
  | connectByName (fromNode : NodeId) (output : String) (toNode : NodeId) (input : String)
  | disconnect (edge : EdgeId)
  | disconnectPort (port : PortId)
  | inferNode (node : NodeId)
  | inferAll
  | addVariable (decl : VariableDecl)
  | removeVariable (id : VariableId)

/-- A graph with the supply that its new elements are named from. -/
abbrev Workpiece := Graph × IdSupply

/-- The result of an edit that changes nothing when it is refused. -/
def Workpiece.orKeep {α ε : Type} (work : Workpiece) :
    Except ε (α × Graph × IdSupply) → Workpiece
  | .ok (_, after) => after
  | .error _ => work

/-- The graph and the supply after an edit, whether it succeeds or not. -/
def GraphEdit.apply (env : DefinitionEnv) (work : Workpiece) : GraphEdit → Workpiece
  | .spawn kind position => (work.1.spawn env kind.1 position work.2).2
  | .push stack index kind => (work.1.push env stack index kind.1 work.2).2
  | .remove node => ((work.1.remove node).2, work.2)
  | .define node =>
    match work.1.defineNode env node work.2 with
    | .ok after => after
    | .error _ => work
  | .setCallMethod node method => (work.1.setCallMethod env node method work.2).2
  | .setConstant node input value =>
    match work.1.setConstant node input value with
    | .ok g => (g, work.2)
    | .error _ => work
  | .connect fromNode fromPort toNode toPort =>
    work.orKeep (work.1.connect fromNode fromPort toNode toPort work.2)
  | .connectByName fromNode output toNode input =>
    work.orKeep (work.1.connectByName fromNode output toNode input work.2)
  | .disconnect edge => ((work.1.disconnect edge).2, work.2)
  | .disconnectPort port => ((work.1.disconnectPort port).2, work.2)
  | .inferNode node => (work.1.inferNode env node work.2).2
  | .inferAll => (work.1.inferAll env work.2).2
  | .addVariable decl => (work.1.addVariable decl, work.2)
  | .removeVariable id => ((work.1.removeVariable id).2, work.2)

/-- What edits lead to, each made with what is known about types at its time. -/
def Workpiece.after (work : Workpiece) (edits : List (DefinitionEnv × GraphEdit)) : Workpiece :=
  edits.foldl (fun work edit => edit.2.apply edit.1 work) work

/-- Work on a graph takes identities from the supply and keeps the graph in order while they last. -/
structure Workpiece.Tends (before after : Workpiece) : Prop where
  extended : before.2.Extends after.2
  tended : after.2.next ≤ UInt64.size → before.1.Tended before.2 → after.1.Tended after.2

namespace Workpiece.Tends

variable {first second third : Workpiece} {g g' : Graph} {supply supply' : IdSupply}
  {env : DefinitionEnv} {id : NodeId}

theorem refl (work : Workpiece) : work.Tends work := ⟨.refl _, fun _ tended => tended⟩

theorem trans (one : first.Tends second) (two : second.Tends third) : first.Tends third where
  extended := one.extended.trans two.extended
  tended lasts tended :=
    two.tended lasts (one.tended (Nat.le_trans two.extended.next lasts) tended)

theorem of_spared (spared : g.Linked → Graph.Spared supply supply g g') :
    Workpiece.Tends (g, supply) (g', supply) where
  extended := .refl supply
  tended lasts tended := tended.spare (spared tended.toLinked) (.refl supply) lasts

theorem defineNode (run : g.defineNode env id supply = .ok (g', supply')) :
    Workpiece.Tends (g, supply) (g', supply') where
  extended := (Graph.defineNode_spec run).1
  tended lasts tended := tended.defineNode run lasts

theorem of_restored (restored : Graph.Restored g g' supply supply') :
    Workpiece.Tends (g, supply) (g', supply') := by
  obtain ⟨rfl, rfl⟩ | ⟨rfl, back⟩ := restored
  · exact refl _
  · refine ⟨IdSupply.extends_fresh supply, fun lasts tended => ?_⟩
    have taken : supply.Taken supply.fresh.2 supply.fresh.1 := IdSupply.taken_fresh (.refl _)
    obtain rfl := back tended.toWellFormed (tended.fresh lasts taken)
    exact { tended with
      unused := fun uses held => tended.unused uses ((IdSupply.extends_fresh supply).holds held) }

theorem spawn (g : Graph) (env : DefinitionEnv) {kind : NodeKind} (builtIn : kind.isBuiltIn = true)
    (position : Position) (supply : IdSupply) :
    Workpiece.Tends (g, supply) (g.spawn env kind position supply).2 := by
  rcases run : g.spawn env kind position supply with ⟨result, g', supply'⟩
  cases result with
  | error e => exact of_restored (Graph.spawn_error run)
  | ok id =>
    obtain ⟨rfl, defined⟩ := Graph.spawn_defined run
    refine trans ⟨IdSupply.extends_fresh supply, fun lasts tended => ?_⟩ (defineNode defined)
    have taken : supply.Taken supply.fresh.2 supply.fresh.1 := IdSupply.taken_fresh (.refl _)
    have spared : Graph.Spared supply supply.fresh.2 g
        (g.addNode { Node.new ⟨supply.fresh.1⟩ kind with position }) :=
      .addNode tended.toLinked (tended.fresh lasts taken) rfl rfl builtIn rfl rfl taken
    exact tended.spare spared (IdSupply.extends_fresh supply) lasts

theorem push (g : Graph) (env : DefinitionEnv) (stack : NodeId) (index : Option Nat)
    {kind : NodeKind} (builtIn : kind.isBuiltIn = true) (supply : IdSupply) :
    Workpiece.Tends (g, supply) (g.push env stack index kind supply).2 := by
  rcases run : g.push env stack index kind supply with ⟨result, g', supply'⟩
  cases result with
  | error e => exact of_restored (Graph.push_error run)
  | ok id =>
    obtain ⟨rfl, single, holder, place, found, isStack, rfl, defined⟩ := Graph.push_defined run
    refine trans ⟨IdSupply.extends_fresh supply, fun lasts tended => ?_⟩ (defineNode defined)
    have taken : supply.Taken supply.fresh.2 supply.fresh.1 := IdSupply.taken_fresh (.refl _)
    have spared : Graph.Spared supply supply.fresh.2 g
        (g.stackNode { Node.new ⟨supply.fresh.1⟩ kind with parent := some stack } stack
          (min (index.getD holder.children.length) holder.children.length)) :=
      .stackNode tended.toLinked (tended.fresh lasts taken) found isStack (Nat.min_le_right _ _)
        rfl rfl single builtIn rfl rfl taken
    exact tended.spare spared (IdSupply.extends_fresh supply) lasts

/-- A call that calls otherwise. -/
theorem callAnew {n : Node} {change : Node → Node} {decl decl' : CallDecl}
    (found : g.node? id = some n) (call : n.kind = .call decl)
    (links : (change n).links = n.links) (kind : (change n).kind = .call decl')
    (ports : (change n).inputs = n.inputs ∧ (change n).outputs = n.outputs ∧
      (change n).constants = n.constants) :
    Workpiece.Tends (g, supply) (g.modifyNode id change, supply) := by
  refine of_spared fun linked => .modify linked found links ⟨congrArg NodeLinks.id links, ports.1,
    ports.2.1, by rw [ports.2.2], ?_, ?_⟩
  · rw [kind, call]
    rfl
  · rw [kind, call]
    rfl

theorem setCallMethod (g : Graph) (env : DefinitionEnv) (id : NodeId) (method : MethodRef)
    (supply : IdSupply) :
    Workpiece.Tends (g, supply) (g.setCallMethod env id method supply).2 := by
  unfold Graph.setCallMethod
  split
  · exact refl _
  · rename_i n found
    split
    · rename_i decl call
      split
      · exact refl _
      · have recalled : Workpiece.Tends (g, supply) (g.modifyNode id fun n =>
            { n with
              kind := .call (.plain method)
              title := (NodeKind.call (.plain method)).defaultTitle }, supply) :=
          callAnew found call (by simp [Node.links, call, NodeKind.isStack]) rfl ⟨rfl, rfl, rfl⟩
        dsimp only
        split
        · rename_i defined
          exact recalled.trans (defineNode defined)
        · exact recalled
    · exact refl _

theorem inferNode (g : Graph) (env : DefinitionEnv) (id : NodeId) (supply : IdSupply) :
    Workpiece.Tends (g, supply) (g.inferNode env id supply).2 := by
  unfold Graph.inferNode
  split
  · exact refl _
  · rename_i n found
    split
    · rename_i decl call
      split
      · exact refl _
      · split
        · exact refl _
        · dsimp only
          generalize bind : g.modifyNode id _ = bound
          have recalled : Workpiece.Tends (g, supply) (bound, supply) := by
            rw [← bind]
            exact callAnew found call (by simp [Node.links, call, NodeKind.isStack]) rfl
              ⟨rfl, rfl, rfl⟩
          split
          · exact recalled
          · rename_i defined
            split <;> exact recalled.trans (defineNode defined)
    · exact refl _

theorem inferStep (env : DefinitionEnv) (pass : Graph.InferencePass) (node : NodeId) :
    Workpiece.Tends (pass.graph, pass.supply)
      ((pass.step env node).graph, (pass.step env node).supply) :=
  inferNode pass.graph env node pass.supply

theorem inferPass (env : DefinitionEnv) (calls : List NodeId) (pass : Graph.InferencePass) :
    Workpiece.Tends (pass.graph, pass.supply)
      ((calls.foldl (Graph.InferencePass.step env) pass).graph,
        (calls.foldl (Graph.InferencePass.step env) pass).supply) := by
  induction calls generalizing pass with
  | nil => exact refl _
  | cons call rest ih => exact (inferStep env pass call).trans (ih _)

theorem inferPasses (env : DefinitionEnv) (calls : List NodeId) (passes : Nat)
    (pass : Graph.InferencePass) :
    Workpiece.Tends (pass.graph, pass.supply)
      ((Graph.inferPasses env calls passes pass).graph,
        (Graph.inferPasses env calls passes pass).supply) := by
  induction passes generalizing pass with
  | zero => exact refl _
  | succ passes ih =>
    have once := inferPass env calls { pass with changed := false }
    rw [Graph.inferPasses]
    split
    · exact once.trans (ih _)
    · exact once

theorem remove (g : Graph) (supply : IdSupply) (id : NodeId) :
    Workpiece.Tends (g, supply) ((g.remove id).2, supply) :=
  of_spared fun linked => .remove linked id

theorem removeVariable (g : Graph) (supply : IdSupply) (id : VariableId) :
    Workpiece.Tends (g, supply) ((g.removeVariable id).2, supply) := by
  unfold Graph.removeVariable
  split
  · exact refl _
  · dsimp only
    generalize (List.map Node.id _) = users
    have without : Workpiece.Tends (g, supply) ({ g with vars := g.vars.erase id }, supply) :=
      of_spared fun linked => .of_edges linked rfl fun found => found
    refine without.trans ?_
    generalize ({ g with vars := g.vars.erase id } : Graph) = g
    induction users generalizing g with
    | nil => exact refl _
    | cons user rest ih => exact (remove g supply user).trans (ih _)

theorem connect {fromNode toNode : NodeId} {fromPort toPort : PortId} {edge : EdgeId}
    (run : g.connect fromNode fromPort toNode toPort supply = .ok (edge, g', supply')) :
    Workpiece.Tends (g, supply) (g', supply') := by
  obtain ⟨rfl, rfl, source, target, joined, -, -⟩ := Graph.connect_joined run
  exact ⟨IdSupply.extends_fresh supply, fun lasts tended => tended.join joined lasts⟩

theorem connectByName {fromNode toNode : NodeId} {output input : String} {edge : EdgeId}
    (run : g.connectByName fromNode output toNode input supply = .ok (edge, g', supply')) :
    Workpiece.Tends (g, supply) (g', supply') := by
  obtain ⟨_, _, connected⟩ := Graph.connectByName_connect run
  exact connect connected

theorem setConstant {input : String} {value : Constant}
    (run : g.setConstant id input value = .ok g') :
    Workpiece.Tends (g, supply) (g', supply) := by
  refine ⟨.refl supply, fun lasts tended => ?_⟩
  unfold Graph.setConstant at run
  split at run
  · exact nomatch run
  · rename_i n found
    split at run
    · exact nomatch run
    · rename_i p seen
      obtain rfl := Except.ok.inj run
      have keys := (tended.ported found).keys_insert_constant (List.mem_of_find?_eq_some seen) value
      have spared : Graph.Spared supply supply g (g.modifyNode id fun n =>
          { n with constants := n.constants.insert p.id value }) :=
        .modify tended.toLinked found rfl ⟨rfl, rfl, rfl, keys, rfl, rfl⟩
      exact tended.spare spared (.refl supply) lasts

end Workpiece.Tends

open Workpiece.Tends in
theorem GraphEdit.apply_tends (env : DefinitionEnv) (edit : GraphEdit) (work : Workpiece) :
    work.Tends (edit.apply env work) := by
  obtain ⟨g, supply⟩ := work
  cases edit with
  | spawn kind position => exact Workpiece.Tends.spawn g env kind.2 position supply
  | push stack index kind => exact Workpiece.Tends.push g env stack index kind.2 supply
  | remove node => exact Workpiece.Tends.remove g supply node
  | define node =>
    rw [GraphEdit.apply]
    dsimp only
    split
    · rename_i run
      exact defineNode run
    · exact refl _
  | setCallMethod node method => exact Workpiece.Tends.setCallMethod g env node method supply
  | setConstant node input value =>
    rw [GraphEdit.apply]
    dsimp only
    split
    · rename_i run
      exact Workpiece.Tends.setConstant run
    · exact refl _
  | connect fromNode fromPort toNode toPort =>
    rw [GraphEdit.apply]
    cases run : g.connect fromNode fromPort toNode toPort supply with
    | ok made => exact Workpiece.Tends.connect run
    | error => exact refl _
  | connectByName fromNode output toNode input =>
    rw [GraphEdit.apply]
    cases run : g.connectByName fromNode output toNode input supply with
    | ok made => exact Workpiece.Tends.connectByName run
    | error => exact refl _
  | disconnect edge =>
    refine of_spared fun linked => .of_edges linked rfl fun {k e} found => ?_
    have left : (g.edges.erase edge).get? k = some e := found
    rw [OrderedMap.get?_erase] at left
    split at left
    · exact nomatch left
    · exact left
  | disconnectPort port =>
    refine of_spared fun linked => .of_edges linked rfl fun {k e} found => ?_
    exact (Option.filter_eq_some_iff.mp (OrderedMap.get?_filter.symm.trans found)).1
  | inferNode node => exact Workpiece.Tends.inferNode g env node supply
  | inferAll => exact Workpiece.Tends.inferPasses env _ _ ⟨g, supply, ∅, false⟩
  | addVariable decl => exact of_spared fun linked => .of_edges linked rfl fun found => found
  | removeVariable id => exact Workpiece.Tends.removeVariable g supply id

theorem Workpiece.after_tends (edits : List (DefinitionEnv × GraphEdit)) (work : Workpiece) :
    work.Tends (work.after edits) := by
  induction edits generalizing work with
  | nil => exact .refl work
  | cons edit rest ih => exact (edit.2.apply_tends edit.1 work).trans (ih _)

/-- A new graph, with a supply that has not been used for it. -/
def Workpiece.start (name : String) (stencil : Stencil) (supply : IdSupply) : Workpiece :=
  ({ Graph.empty name with stencil }, supply)

theorem Workpiece.start_tended (name : String) (stencil : Stencil) (supply : IdSupply) :
    (Workpiece.start name stencil supply).1.Tended supply := by
  have noNode : ∀ k, (Workpiece.start name stencil supply).1.node? k = none := fun _ => rfl
  have noEdge : ∀ k, (Workpiece.start name stencil supply).1.edge? k = none := fun _ => rfl
  have linked : (Workpiece.start name stencil supply).1.Linked := by
    constructor <;> simp [noNode, noEdge]
  have wired : (Workpiece.start name stencil supply).1.Wired := by
    constructor <;> simp [noEdge]
  refine ⟨⟨linked, wired, ?_, ?_⟩, ?_, ?_, ?_⟩
  · simp [noNode]
  · simp [noNode]
  · simp [noNode]
  · simp [noNode]
  · intro u used
    cases used with
    | node found => simp [noNode] at found
    | port found => simp [noNode] at found
    | edge found => simp [noEdge] at found

/-- A node stands in a stack exactly if the stack lists it once. -/
theorem Graph.Linked.parent_iff {g : Graph} {id s : NodeId} {n : Node} (linked : g.Linked)
    (found : g.node? id = some n) :
    n.parent = some s ↔
      ∃ h, g.node? s = some h ∧ h.kind.isStack = true ∧ h.children.count id = 1 := by
  constructor
  · intro stands
    obtain ⟨h, foundS, stack, inside⟩ := linked.held found stands
    exact ⟨h, foundS, stack, List.count_eq_one_of_mem (linked.once foundS) inside⟩
  · rintro ⟨h, foundS, -, single⟩
    have inside : id ∈ h.children := List.count_pos_iff.mp (by omega)
    obtain ⟨n', found', stands⟩ := linked.holds foundS inside
    obtain rfl := Option.some.inj (found.symm.trans found')
    exact stands

/-- Whatever edits are made to a new graph, as long as their identities last: the graph is
well-formed, a node stands in a stack exactly if the stack lists it once, and whenever two ports are
connected then they are an output and an input, as an edge requires. -/
theorem Workpiece.after_wellFormed (name : String) (stencil : Stencil) (supply : IdSupply)
    (edits : List (DefinitionEnv × GraphEdit))
    (lasts : ((Workpiece.start name stencil supply).after edits).2.next ≤ UInt64.size) :
    let g := ((Workpiece.start name stencil supply).after edits).1
    g.WellFormed ∧
      (∀ id n s, g.node? id = some n → (n.parent = some s ↔
        ∃ h, g.node? s = some h ∧ h.kind.isStack = true ∧ h.children.count id = 1)) ∧
      ∀ fromNode fromPort toNode toPort supply' edge g' supply'',
        g.connect fromNode fromPort toNode toPort supply' = .ok (edge, g', supply'') →
        ∃ source target e, source.id = fromPort ∧ target.id = toPort ∧
          Edge.between edge source target = .ok e ∧ g'.edge? edge = some e := by
  have tended := (Workpiece.after_tends edits _).tended lasts
    (Workpiece.start_tended name stencil supply)
  refine ⟨tended.toWellFormed, fun id n s found => tended.parent_iff found, ?_⟩
  intro fromNode fromPort toNode toPort supply' edge g' supply'' run
  obtain ⟨-, -, source, target, joined, sourceId, targetId⟩ := Graph.connect_joined run
  exact ⟨source, target, _, sourceId, targetId, joined.between, by
    rw [joined.edges, if_pos rfl]⟩

/-- A function that branches to a stack: the edits that make it, and one that is refused. -/
def GraphEdit.branching : List GraphEdit :=
  let node (n : Nat) : NodeId := ⟨familyIdentity 0 n⟩
  [.spawn ⟨.function (.onEvent .start), rfl⟩ default, .spawn ⟨.stack, rfl⟩ default,
    .push (node 0) none ⟨.branch, rfl⟩, .connectByName (node 5) "Then" (node 2) "In",
    .connectByName (node 5) "Then" (node 2) "In", .setConstant (node 5) "Condition" (.bool true)]

theorem Workpiece.after_wellFormed_branching :
    let work := (Workpiece.start "Branching" .standard (.ofFamily 0)).after
      (GraphEdit.branching.map fun edit => (⟨TypeDatabase.empty.toOracle, ∅⟩, edit))
    work.2.next ≤ UInt64.size ∧ work.1.nodes.size = 3 ∧ work.1.edges.size = 1 ∧
      work.1.WellFormed := by
  have lasts : ((Workpiece.start "Branching" .standard (.ofFamily 0)).after
      (GraphEdit.branching.map fun edit =>
        (⟨TypeDatabase.empty.toOracle, ∅⟩, edit))).2.next ≤ UInt64.size := by decide +kernel
  exact ⟨lasts, by decide +kernel, by decide +kernel,
    (Workpiece.after_wellFormed "Branching" .standard (.ofFamily 0) _ lasts).1⟩

end NodeScript
