import NodeScript.Proofs.Editor.Actions
import NodeScript.Proofs.Graph.Lasting
import NodeScript.Proofs.Translation.Linkage
import NodeScript.Typing.TypeDatabase

/-!
The ports of the nodes that leave a function, through runs of editor actions. Such a node gets its
ports when it is made, from the function that execution reaches it from then, and keeps them whatever
is done afterwards. So they are right for good where the node stands in the function itself, and they
are wrong where execution is led to its stack only later.
-/

namespace NodeScript

/-- The ports of a node that leaves a function with a result. -/
def returnPorts (returnType : Option TypeHandle) : List PortSpec :=
  match returnType with
  | some t => if t = .void then [] else [.dataInput "Value" t]
  | none => []

theorem definePorts_leave (env : DefinitionEnv) (vars : OrderedMap VariableId VariableDecl)
    (returnType : Option TypeHandle) :
    NodeKind.leave.definePorts env vars returnType = .ok (returnPorts returnType) := by
  unfold NodeKind.definePorts NodeKind.declaredPorts returnPorts
  cases returnType with
  | none => rfl
  | some t => by_cases void : t = .void <;> simp [void, duplicatePort?]

theorem returnPorts_inputs (returnType : Option TypeHandle) :
    ∀ p ∈ returnPorts returnType, p.direction = .input := by
  intro p member
  unfold returnPorts at member
  split at member
  · split at member
    · exact absurd member List.not_mem_nil
    · obtain rfl := List.mem_singleton.mp member
      rfl
  · exact absurd member List.not_mem_nil

theorem Node.Shows.inputs_eq {n : Node} {returnType : Option TypeHandle}
    (shown : n.Shows (returnPorts returnType)) : n.inputs.map Port.spec = returnPorts returnType := by
  rw [shown.inputs, List.filter_eq_self]
  exact fun p member => decide_eq_true (returnPorts_inputs returnType p member)

/-- Execution from a function is led to the stack that a node stands in. -/
def Graph.HasWayTo (g : Graph) (f r : NodeId) : Prop :=
  ∃ m decl n s, g.node? f = some m ∧ m.kind = .function decl ∧ g.node? r = some n ∧
    n.parent = some s ∧ Relation.ReflTransGen g.LinksTo f s

namespace EditorState

variable {s s' : EditorState} {id k r f : NodeId} {n : Node} {env : DefinitionEnv}
  {supply' : IdSupply} {kind : NodeKind} {position : Position} {place : Option StackPlace}
  {action : EditorAction} {actions : List EditorAction}

/-- Carries out an action. One that is rejected changes nothing. -/
def act (env : DefinitionEnv) (s : EditorState) (action : EditorAction) : EditorState :=
  match action.run env s with
  | .ok next => next
  | .error _ => s

/-- Carries out actions one after the other. -/
def perform (env : DefinitionEnv) (s : EditorState) (actions : List EditorAction) : EditorState :=
  actions.foldl (act env) s

section Lasting

theorem editNode_lasts {edit : Graph → NodeId → Except GraphError Graph}
    (run : s.editNode edit id = .ok s')
    (lasts : ∀ {g g'}, edit g id = .ok g' → g.Lasts g') : s.graph.Lasts s'.graph := by
  unfold editNode at run
  cases edited : edit s.graph id with
  | error e => simp [edited, ofGraphEdit, Except.map] at run
  | ok g' =>
    rw [edited] at run
    obtain rfl := Except.ok.inj run
    exact lasts edited

theorem editNodeIf_lasts {test : Node → Bool} {edit : Graph → Node → Except GraphError Graph}
    (run : s.editNodeIf test edit id = .ok s')
    (lasts : ∀ {n g g'}, edit g n = .ok g' → g.Lasts g') : s.graph.Lasts s'.graph := by
  unfold editNodeIf at run
  split at run
  · exact nomatch run
  · split at run
    · exact editNode_lasts run lasts
    · obtain rfl := Except.ok.inj run
      exact .refl _

theorem refreshCall_lasts (env : DefinitionEnv) (s : EditorState) (id : NodeId) :
    s.graph.Lasts (s.refreshCall env id).graph := by
  unfold refreshCall
  split
  · rename_i call
    exact Graph.inferNode_lasts env s.supply call
  · exact .refl _

theorem connectPorts_lasts {source target : NodeId} {output input : String}
    (run : s.connectPorts env source output target input = .ok s') :
    s.graph.Lasts s'.graph := by
  unfold connectPorts at run
  split at run
  · exact nomatch run
  · rename_i connected
    obtain rfl := Except.ok.inj run
    obtain ⟨-, -, -, -, nodes, -⟩ := Graph.connectByName_spec connected
    exact .trans (fun k => .of_eq (nodes k))
      ((refreshCall_lasts env _ source).trans (refreshCall_lasts env _ target))

theorem renameNode_lasts {title : String} (run : s.renameNode id title = .ok s') :
    s.graph.Lasts s'.graph := by
  unfold renameNode at run
  split at run
  · exact nomatch run
  · split at run
    · exact editNode_lasts run fun edited => Graph.changeUnlocked_lasts edited fun _ => rfl
    · exact nomatch run

theorem changeMethod_lasts {method : MethodRef} (run : s.changeMethod env id method = .ok s') :
    s.graph.Lasts s'.graph := by
  unfold changeMethod at run
  split at run
  · exact nomatch run
  · rename_i changed
    obtain rfl := Except.ok.inj run
    exact (Graph.setCallMethod_lasts changed).trans (refreshCall_lasts env _ id)

theorem deleteEdge_lasts (s : EditorState) (edge : EdgeId) :
    s.graph.Lasts (s.deleteEdge edge).graph := by
  unfold deleteEdge
  split
  · rename_i gone
    obtain ⟨-, rfl⟩ := Prod.mk.inj gone
    exact fun k => .of_eq rfl
  · exact .refl _

theorem disconnectEdge_lasts {edge : EdgeId} (run : s.disconnectEdge edge = .ok s') :
    s.graph.Lasts s'.graph := by
  unfold disconnectEdge at run
  split at run
  · rename_i gone
    obtain rfl := Except.ok.inj run
    obtain ⟨-, rfl⟩ := Prod.mk.inj gone
    exact fun k => .of_eq rfl
  · exact nomatch run

theorem deleteNode_lasts (s : EditorState) (id : NodeId) :
    s.graph.Lasts (s.deleteNode id).graph := by
  unfold deleteNode
  split
  · exact .refl _
  · split
    · exact .refl _
    · exact Graph.removeWithin_lasts _ s.graph id

theorem foldl_lasts {α : Type} {step : EditorState → α → EditorState}
    (each : ∀ (s : EditorState) x, s.graph.Lasts (step s x).graph) (items : List α)
    (s : EditorState) : s.graph.Lasts (items.foldl step s).graph :=
  foldl_keeps (R := fun s s' => s.graph.Lasts s'.graph) (fun _ => .refl _) .trans each items s

theorem foldlM_lasts {α : Type} {step : EditorState → α → Edited}
    (each : ∀ {s s' : EditorState} {x}, step s x = .ok s' → s.graph.Lasts s'.graph) {items : List α}
    (run : items.foldlM step s = .ok s') : s.graph.Lasts s'.graph :=
  foldlM_keeps (R := fun s s' => s.graph.Lasts s'.graph) (fun _ => .refl _) .trans
    (fun _ => each) run

end Lasting

section Making

/-- A node has been made: the others keep what they have, and the new one shows the ports of its kind
unless it is a stack, where execution may come in. -/
structure Made (env : DefinitionEnv) (kind : NodeKind) (place : Option StackPlace) (id : NodeId)
    (s s' : EditorState) : Prop where
  identity : id = ⟨s.supply.fresh.1⟩
  extended : s.supply.fresh.2.Extends s'.supply
  others : ∀ k, k ≠ id → s.graph.KeepsNode s'.graph k
  made : ∃ n specs returnType, s'.graph.node? id = some n ∧ n.kind = kind ∧
    n.parent = place.map (·.stack) ∧ n.Shows specs ∧
    kind.definePorts env s.graph.vars returnType = .ok specs ∧
    (kind.isStack = false → returnType = s'.graph.returnTypeOf? id)

/-- A graph to which a node without ports has come, and where its ports have then been defined. -/
theorem Made.of_defined (base : Graph) {g' : Graph}
    (others : ∀ k, k ≠ id → s.graph.KeepsNode base k) (vars : base.vars = s.graph.vars)
    (identity : id = ⟨s.supply.fresh.1⟩) (found : base.node? id = some n) (bare : n.ports = [])
    (stands : n.parent = place.map (·.stack)) (graph : s'.graph = g') (supply : s'.supply = supply')
    (run : base.defineNode env id s.supply.fresh.2 = .ok (g', supply')) :
    Made env n.kind place id s s' := by
  subst graph supply
  obtain ⟨extended, rework, -⟩ := Graph.defineNode_spec run
  obtain ⟨n', specs, found', kind, parent, defined, shows'⟩ := Graph.defineNode_shows found run
  refine ⟨identity, extended, fun k other => (others k other).trans (.of_eq (rework.others k other)),
    n', specs, base.returnTypeOf? id, found', kind, parent.trans stands, shows', vars ▸ defined,
    fun single => ?_⟩
  exact (Graph.returnTypeOf?_of_defined found bare single run).symm

theorem createNode_made (run : s.createNode env kind position place = .ok s') :
    ∃ id, Made env kind place id s s' := by
  unfold createNode at run
  split at run
  · rename_i place
    split at run
    · exact nomatch run
    · rename_i id graph supply pushed
      obtain rfl := Except.ok.inj run
      obtain ⟨identity, -, holder, slot, -, -, -, defined⟩ := Graph.push_defined pushed
      generalize fresh : ({ Node.new id kind with parent := some place.stack } : Node) = n at defined
      obtain ⟨m, found, kindM, stands, bare⟩ :=
        s.graph.stackNode_arrives n place.stack slot
      have filed : n.id = id := by rw [← fresh]; rfl
      have kindN : n.kind = kind := by rw [← fresh]; rfl
      rw [filed] at found
      refine ⟨id, (kindM.trans kindN) ▸ .of_defined (s.graph.stackNode n place.stack slot) (fun k other => ?_) rfl identity found
        (bare.trans ?_) (stands.trans ?_) rfl rfl defined⟩
      · exact Graph.stackNode_keeps (filed ▸ other)
      · rw [← fresh]; rfl
      · rw [← fresh]; rfl
  · split at run
    · exact nomatch run
    · rename_i id graph supply spawned
      obtain rfl := Except.ok.inj run
      obtain ⟨identity, defined⟩ := Graph.spawn_defined spawned
      generalize fresh : ({ Node.new id kind with position } : Node) = n at defined
      have filed : n.id = id := by rw [← fresh]; rfl
      have found : (s.graph.addNode n).node? id = some n := by
        rw [Graph.node?_addNode, if_pos filed.symm]
      have kindN : n.kind = kind := by rw [← fresh]; rfl
      refine ⟨id, kindN ▸ .of_defined (s.graph.addNode n) (fun k other => ?_) rfl identity found ?_ ?_ rfl rfl defined⟩
      · exact Graph.addNode_keeps (filed ▸ other)
      · rw [← fresh]; rfl
      · rw [← fresh]; rfl

theorem edit_cases (run : action.edit env s = .ok s') :
    s.graph.Lasts s'.graph ∨ ∃ kind position place id,
      action = .createNode kind position place ∧ Made env kind place id s s' := by
  cases action with
  | createNode kind position place =>
    obtain ⟨id, made⟩ := createNode_made run
    exact .inr ⟨kind, position, place, id, rfl, made⟩
  | acknowledgeChanges | markSaved | other =>
    obtain rfl := Except.ok.inj run
    exact .inl (.refl s.graph)
  | deleteElements nodes edges =>
    obtain rfl := Except.ok.inj run
    exact .inl ((foldl_lasts deleteEdge_lasts edges s).trans (foldl_lasts deleteNode_lasts nodes _))
  | connectPorts source output target input => exact .inl (connectPorts_lasts run)
  | disconnectEdges edges => exact .inl (foldlM_lasts disconnectEdge_lasts run)
  | moveNodes nodes delta =>
    refine .inl (foldlM_lasts (fun run => ?_) run)
    exact editNodeIf_lasts run fun edited => Graph.changeUnlocked_lasts edited fun _ => rfl
  | setLocked nodes locked =>
    refine .inl (foldlM_lasts (fun run => ?_) run)
    exact editNode_lasts run fun edited => Graph.change_lasts edited fun _ => rfl
  | setColor nodes color =>
    refine .inl (foldlM_lasts (fun run => ?_) run)
    exact editNode_lasts run fun edited => Graph.change_lasts edited fun _ => rfl
  | setCollapsed nodes collapsed =>
    refine .inl (foldlM_lasts (fun run => ?_) run)
    refine editNodeIf_lasts run fun edited => Graph.change_lasts edited fun n => ?_
    split <;> rfl
  | renameNode node title => exact .inl (renameNode_lasts run)
  | changeMethod node method => exact .inl (changeMethod_lasts run)
  | setConstant node input value =>
    have run : editNode (fun g id => g.setConstant id input value) s node = .ok s' := run
    exact .inl (editNode_lasts run fun edited => Graph.setConstant_lasts edited)

/-- An action makes a node, or it touches nothing that nodes keep. -/
theorem run_cases (run : action.run env s = .ok s') :
    s.graph.Lasts s'.graph ∨ ∃ kind position place id,
      action = .createNode kind position place ∧ Made env kind place id s s' := by
  rcases run_edits run with ⟨-, rfl⟩ | ⟨-, rfl⟩ | edited
  · exact .inl (.refl s.graph)
  · exact .inl (.refl s.graph)
  · rcases edit_cases edited with kept | ⟨kind, position, place, id, rfl, made⟩
    · exact .inl kept
    · exact .inr ⟨kind, position, place, id, rfl, made.identity, made.extended, made.others,
        made.made⟩

end Making

section Runs

theorem act_cases (env : DefinitionEnv) (s : EditorState) (action : EditorAction) :
    s.graph.Lasts (s.act env action).graph ∨ ∃ kind position place id,
      action = .createNode kind position place ∧ Made env kind place id s (s.act env action) := by
  unfold act
  cases run : action.run env s with
  | ok s' => exact run_cases run
  | error e => exact .inl (.refl _)

/-- Identities are taken in order, and as long as they last those to come are not in use. -/
theorem act_sound (env : DefinitionEnv) (s : EditorState) (action : EditorAction) :
    s.supply.Extends (s.act env action).supply ∧
      (s.Sound → (s.act env action).supply.next ≤ UInt64.size → (s.act env action).Sound) := by
  unfold act
  cases run : action.run env s with
  | error e => exact ⟨.refl _, fun sound _ => sound⟩
  | ok s' =>
    by_cases own : action = .acknowledgeChanges
    · subst own
      obtain rfl := Except.ok.inj run
      exact ⟨.refl _, fun sound _ => ⟨sound.linked, sound.spared⟩⟩
    · have proceeds := run_proceeds own run
      exact ⟨proceeds.extended, fun sound lasts =>
        (proceeds.noted sound lasts).sound sound proceeds.extended lasts⟩

theorem perform_sound (env : DefinitionEnv) (s : EditorState) (actions : List EditorAction) :
    s.supply.Extends (s.perform env actions).supply ∧
      (s.Sound → (s.perform env actions).supply.next ≤ UInt64.size →
        (s.perform env actions).Sound) := by
  induction actions generalizing s with
  | nil => exact ⟨.refl _, fun sound _ => sound⟩
  | cons action rest ih =>
    obtain ⟨extended, sound⟩ := s.act_sound env action
    obtain ⟨extended', sound'⟩ := ih (s.act env action)
    refine ⟨extended.trans extended', fun start lasts => sound' (sound start ?_) lasts⟩
    exact Nat.le_trans extended'.next lasts

theorem perform_append (env : DefinitionEnv) (s : EditorState) (earlier later : List EditorAction) :
    s.perform env (earlier ++ later) = (s.perform env earlier).perform env later :=
  List.foldl_append ..

/-- What stands in a graph under an identity that is not given again keeps what it has. -/
theorem perform_keeps (unheld : ¬ s.supply.Holds k.uuid)
    (lasts : (s.perform env actions).supply.next ≤ UInt64.size) :
    s.graph.KeepsNode (s.perform env actions).graph k := by
  induction actions generalizing s with
  | nil => exact .of_eq rfl
  | cons action rest ih =>
    obtain ⟨extended, -⟩ := s.act_sound env action
    obtain ⟨extended', -⟩ := (s.act env action).perform_sound env rest
    have later : (s.act env action).graph.KeepsNode ((s.act env action).perform env rest).graph k :=
      ih (fun held => unheld (extended.holds held)) lasts
    refine .trans ?_ later
    rcases s.act_cases env action with kept | ⟨kind, position, place, id, -, made⟩
    · exact kept k
    · refine made.others k fun same => unheld ?_
      have taken : s.supply.Taken (s.act env action).supply k.uuid := by
        rw [same, made.identity]
        exact IdSupply.taken_fresh made.extended
      exact taken.holds (Nat.le_trans extended'.next lasts)

/-- A node that is there was there from the start, or it was made on the way; since then it has kept
what it had. -/
theorem perform_origin (found : (s.perform env actions).graph.node? r = some n) :
    (∃ n₀, s.graph.node? r = some n₀ ∧ n₀.fixture = n.fixture) ∨
    ∃ earlier kind position place later,
      actions = earlier ++ .createNode kind position place :: later ∧
      let before := s.perform env earlier
      let after := before.act env (.createNode kind position place)
      Made env kind place r before after ∧
        ∃ n₀, after.graph.node? r = some n₀ ∧ n₀.fixture = n.fixture := by
  induction actions generalizing s with
  | nil => exact .inl ⟨n, found, rfl⟩
  | cons action rest ih =>
    rcases ih (s := s.act env action) found with ⟨n₀, there, same⟩ |
      ⟨earlier, kind, position, place, later, rfl, made⟩
    · rcases s.act_cases env action with kept | ⟨kind, position, place, id, rfl, made⟩
      · obtain ⟨n₁, first, same'⟩ := kept r n₀ there
        exact .inl ⟨n₁, first, same'.trans same⟩
      · by_cases new : r = id
        · subst new
          exact .inr ⟨[], kind, position, place, rest, rfl, made, n₀, there, same⟩
        · obtain ⟨n₁, first, same'⟩ := made.others r new n₀ there
          exact .inl ⟨n₁, first, same'.trans same⟩
    · exact .inr ⟨action :: earlier, kind, position, place, later, rfl, made⟩

theorem opened_sound (name : String) (supply : IdSupply) :
    (EditorState.opened (Graph.empty name) supply).Sound := by
  have noNode : ∀ k, (Graph.empty name).node? k = none := fun _ => rfl
  have noEdge : ∀ k, (Graph.empty name).edge? k = none := fun _ => rfl
  refine ⟨by constructor <;> simp [opened, noNode, noEdge], fun e there => ?_⟩
  cases e with
  | node id => exact nomatch there
  | edge id => exact nomatch there

/-- Whatever actions an editor carries out on a new graph, as long as its identities last: a node
that leaves a function was made by one of them, and its ports are those for the function that
execution reached it from when it had been made. So they are right for a function exactly if that one
asks for the same ports, and they always are if the node stands in the function itself. -/
theorem return_ports_as_made {name : String} {supply : IdSupply}
    (lasts : ((opened (Graph.empty name) supply).perform env actions).supply.next ≤ UInt64.size)
    (found : ((opened (Graph.empty name) supply).perform env actions).graph.node? r = some n)
    (leaves : n.kind = .leave) :
    let start := opened (Graph.empty name) supply
    ∃ earlier position place later,
      actions = earlier ++ .createNode .leave position place :: later ∧
      let before := (start.perform env earlier).graph
      let made := (start.perform env (earlier ++ [.createNode .leave position place])).graph
      before.node? r = none ∧
      (∃ n₀, made.node? r = some n₀ ∧ n₀.kind = .leave ∧ n₀.parent = n.parent ∧
        n₀.inputs = n.inputs ∧ n₀.outputs = n.outputs) ∧
      n.Shows (returnPorts (made.returnTypeOf? r)) ∧
      ∀ f m decl, (start.perform env actions).graph.node? f = some m → m.kind = .function decl →
        (n.Shows (returnPorts (some decl.returnType)) ↔
          returnPorts (some decl.returnType) = returnPorts (made.returnTypeOf? r)) ∧
        (n.parent = some f → n.Shows (returnPorts (some decl.returnType))) := by
  intro start
  rcases perform_origin found with ⟨n₀, there, -⟩ |
    ⟨earlier, kind, position, place, later, rfl, made, n₀, there, same⟩
  · exact nomatch there
  obtain ⟨parent, kindSame, inputs, outputs⟩ :=
    Node.fixture_of_not_call same (by rw [leaves]; rfl)
  obtain ⟨n₁, specs, returnType, first, kindFirst, -, shown, defined, owned⟩ := made.made
  obtain rfl : n₁ = n₀ := Option.some.inj (first.symm.trans there)
  obtain rfl : kind = .leave := kindFirst.symm.trans (kindSame.trans leaves)
  generalize step : (start.perform env earlier).act env (.createNode .leave position place) = after at *
  have reached : start.perform env (earlier ++ [.createNode .leave position place]) = after :=
    (perform_append ..).trans step
  have final : start.perform env (earlier ++ .createNode .leave position place :: later) =
      after.perform env later := by
    rw [← reached, ← perform_append, List.append_assoc, List.singleton_append]
  rw [final] at lasts found
  have lastsAfter := Nat.le_trans (after.perform_sound env later).1.next lasts
  have soundAfter : after.Sound := by
    have sound := (start.perform_sound env (earlier ++ [.createNode .leave position place])).2
    rw [reached] at sound
    exact sound (opened_sound name supply) lastsAfter
  have soundBefore : (start.perform env earlier).Sound := by
    have extended := (IdSupply.extends_fresh _).trans made.extended
    exact (start.perform_sound env earlier).2 (opened_sound name supply)
      (Nat.le_trans extended.next lastsAfter)
  have taken : (start.perform env earlier).supply.Taken after.supply r.uuid := by
    rw [made.identity]
    exact IdSupply.taken_fresh made.extended
  have shows' : n.Shows (returnPorts (after.graph.returnTypeOf? r)) := by
    rw [definePorts_leave, owned rfl] at defined
    rw [Except.ok.inj defined]
    exact ⟨inputs ▸ shown.inputs, outputs ▸ shown.outputs⟩
  refine ⟨earlier, position, place, later, rfl, soundBefore.absent r taken lastsAfter, ?_, ?_, ?_⟩
  · exact ⟨n₁, reached ▸ first, kindFirst, parent, inputs, outputs⟩
  · exact reached ▸ shows'
  · intro f m decl foundF function
    rw [final] at foundF
    rw [reached]
    refine ⟨⟨fun right => right.inputs_eq.symm.trans shows'.inputs_eq, fun right => right ▸ shows'⟩,
      fun stands => ?_⟩
    obtain ⟨holder, foundH, -, -⟩ := soundAfter.linked.held first (parent.trans stands)
    have unheld : ¬ after.supply.Holds f.uuid :=
      soundAfter.spared (.node f) (by simp [ElementRef.existsIn, foundH])
    obtain ⟨h, foundH', kept⟩ := perform_keeps unheld lasts m foundF
    obtain rfl := Option.some.inj (foundH.symm.trans foundH')
    obtain ⟨-, functionH, -, -⟩ := Node.fixture_of_not_call kept (by rw [function]; rfl)
    have single : n₁.kind.isStack = false := by rw [kindFirst]; rfl
    rwa [Graph.returnTypeOf?_of_function first single (parent.trans stands) foundH
      (functionH.trans function)] at shows'

/-- A function with a result and a stack, both of which hold a node that leaves the function; only
when that is so is execution led from the function to the stack. -/
def belatedActions : List EditorAction :=
  let node (n : Nat) : NodeId := ⟨familyIdentity 0 n⟩
  [.createNode (.function (.method "ComputeSpeed" .float)) default none,
    .createNode .stack default none,
    .createNode .leave default (some ⟨node 2, none⟩),
    .connectPorts (node 0) "Out" (node 2) "In",
    .createNode .leave default (some ⟨node 2, none⟩)]

def belatedState : EditorState :=
  (opened (Graph.empty "Late") (.ofFamily 0)).perform ⟨TypeDatabase.standard.toOracle, ∅⟩
    belatedActions

theorem return_ports_as_made_belated :
    belatedState.supply.next ≤ UInt64.size ∧
    ∃ n, belatedState.graph.node? ⟨familyIdentity 0 7⟩ = some n ∧ n.kind = .leave ∧
      ∃ earlier position place later,
        belatedActions = earlier ++ .createNode .leave position place :: later ∧
        let start := opened (Graph.empty "Late") (.ofFamily 0)
        let env : DefinitionEnv := ⟨TypeDatabase.standard.toOracle, ∅⟩
        let made := (start.perform env (earlier ++ [.createNode .leave position place])).graph
        n.Shows (returnPorts (made.returnTypeOf? ⟨familyIdentity 0 7⟩)) ∧
        ∀ f m decl, belatedState.graph.node? f = some m → m.kind = .function decl →
          (n.Shows (returnPorts (some decl.returnType)) ↔ returnPorts (some decl.returnType) =
            returnPorts (made.returnTypeOf? ⟨familyIdentity 0 7⟩)) := by
  have lasts : belatedState.supply.next ≤ UInt64.size := by decide +kernel
  have kinds : (belatedState.graph.node? ⟨familyIdentity 0 7⟩).map Node.kind = some .leave := by
    decide +kernel
  obtain ⟨n, found, leaves⟩ := Option.map_eq_some_iff.mp kinds
  obtain ⟨earlier, position, place, later, split, -, -, shown, right⟩ :=
    return_ports_as_made lasts found leaves
  exact ⟨lasts, n, found, leaves, earlier, position, place, later, split, shown,
    fun f m decl foundF function => (right f m decl foundF function).1⟩

/-- It is not so that a node that leaves a function always has the ports for the one function that
execution comes from: not if it was made before execution was led there. -/
theorem return_ports_stale : ¬ ∀ (env : DefinitionEnv) (name : String) (supply : IdSupply)
    (actions : List EditorAction) (r f : NodeId) (n m : Node) (decl : FunctionDecl),
    let s := (opened (Graph.empty name) supply).perform env actions
    s.supply.next ≤ UInt64.size → s.graph.node? r = some n → n.kind = .leave →
    s.graph.node? f = some m → m.kind = .function decl → s.graph.HasWayTo f r →
    (∀ f', s.graph.HasWayTo f' r → f' = f) → n.Shows (returnPorts (some decl.returnType)) := by
  intro always
  have lasts : belatedState.supply.next ≤ UInt64.size := by decide +kernel
  have leave : (belatedState.graph.node? ⟨familyIdentity 0 5⟩).map
      (fun n => (n.kind, n.inputs, n.parent)) = some (.leave, [], some ⟨familyIdentity 0 2⟩) := by
    decide +kernel
  have function : (belatedState.graph.node? ⟨familyIdentity 0 0⟩).map Node.kind =
      some (.function (.method "ComputeSpeed" .float)) := by decide +kernel
  have onlyOne : ∀ e ∈ belatedState.graph.nodes.entries, e.2.kind.function?.isSome = true →
      e.1 = ⟨familyIdentity 0 0⟩ := by decide +kernel
  have step : some ⟨familyIdentity 0 2⟩ ∈ belatedState.graph.successors ⟨familyIdentity 0 0⟩ := by
    decide +kernel
  obtain ⟨n, foundN, same⟩ := Option.map_eq_some_iff.mp leave
  obtain ⟨m, foundM, kindM⟩ := Option.map_eq_some_iff.mp function
  simp only [Prod.mk.injEq] at same
  obtain ⟨kindN, bare, stands⟩ := same
  have comes : belatedState.graph.HasWayTo ⟨familyIdentity 0 0⟩ ⟨familyIdentity 0 5⟩ :=
    ⟨m, _, n, _, foundM, kindM, foundN, stands, .single (.inl step)⟩
  have shown := always _ _ _ _ _ _ _ _ _ lasts foundN kindN foundM kindM comes (by
    rintro f' ⟨m', decl', -, -, foundF, kindF, -⟩
    refine onlyOne _ (OrderedMap.get?_eq_some_iff.mp foundF) ?_
    rw [kindF]
    rfl)
  have inputs := shown.inputs_eq
  rw [bare] at inputs
  exact nomatch inputs

end Runs

end EditorState

end NodeScript
