import NodeScript.Proofs.Editor.Notes

/-!
Every action of an editor notes what it does to the graph.
-/

namespace NodeScript

namespace EditorState

variable {s s' : EditorState} {id : NodeId} {n : Node} {g' : Graph} {supply' : IdSupply}
  {env : DefinitionEnv}

theorem Proceeds.of_kept (extended : s.supply.Extends s'.supply)
    (kept : s.Sound → s'.supply.next ≤ UInt64.size → s.Kept s' ∧ s'.graph.Linked) :
    s.Proceeds s' where
  extended := extended
  noted sound lasts := by
    obtain ⟨kept, linked'⟩ := kept sound lasts
    exact kept.noted sound.linked linked'

/-- One node has been edited, perhaps after it has come to the graph, and what has changed is marked.
-/
theorem Kept.of_reworked {grown : Graph} (rework : Graph.Reworked id grown s'.graph)
    (within : s.changes.Within s'.changes) (marked : .node id ∈ s'.changes.changed.keys)
    (stays : ∀ {k n}, s.graph.node? k = some n →
      ∃ n', grown.node? k = some n' ∧ n'.parent = n.parent)
    (others : ∀ k, k ≠ id →
      grown.node? k = s.graph.node? k ∨ .node k ∈ s'.changes.changed.keys)
    (arrives : ∀ {k n}, grown.node? k = some n → s.graph.node? k = none →
      s.supply.Taken s'.supply k.uuid)
    (edges : grown.edges = s.graph.edges) : s.Kept s' where
  within := within
  stays found := by
    obtain ⟨n, found, parent⟩ := stays found
    obtain ⟨n', found', links⟩ := Graph.exists_of_links (rework.links_eq _).symm found
    exact ⟨n', found', (congrArg NodeLinks.parent links).trans parent⟩
  nodes k := by
    by_cases same : k = id
    · exact .inr (same ▸ marked)
    · rw [rework.others k same]
      exact others k same
  newNodes found new := by
    obtain ⟨n, found, -⟩ := Graph.exists_of_links (rework.links_eq _) found
    exact arrives found new
  edges found := by
    have before := rework.edges found
    rw [Graph.edge?, edges] at before
    exact .inl before
  noticed empty := absurd empty (ChangeList.not_isEmpty_of_mem marked)

/-- An edit of a node that was there. -/
theorem Proceeds.of_reworked (rework : Graph.Reworked id s.graph s'.graph)
    (extended : s.supply.Extends s'.supply) (within : s.changes.Within s'.changes)
    (marked : .node id ∈ s'.changes.changed.keys) : s.Proceeds s' := by
  refine .of_kept extended fun sound _ => ⟨.of_reworked rework within marked ?_ ?_ ?_ rfl,
    rework.linked sound.linked⟩
  · exact fun found => ⟨_, found, rfl⟩
  · exact fun _ _ => .inl rfl
  · intro k n found new
    simp [new] at found

/-- An identity that is taken now is not in use. -/
theorem Sound.absent (sound : s.Sound) (id : NodeId) (taken : s.supply.Taken supply' id.uuid)
    (lasts : supply'.next ≤ UInt64.size) : s.graph.node? id = none := by
  cases found : s.graph.node? id with
  | none => rfl
  | some n =>
    have exists' : ElementRef.existsIn (.node id) s.graph = true := by
      simp [ElementRef.existsIn, found]
    exact absurd (taken.holds lasts) (sound.spared _ exists')

/-- An edit of edges alone: those that are new are marked. -/
theorem Proceeds.of_edges (extended : s.supply.Extends s'.supply)
    (within : s.changes.Within s'.changes) (notes : ¬ s'.changes.isEmpty = true)
    (nodes : ∀ k, s'.graph.node? k = s.graph.node? k)
    (edges : ∀ {k e}, s'.graph.edge? k = some e → s.graph.edge? k = some e ∨
      e.id = k ∧ .edge k ∈ s'.changes.changed.keys ∧ s.supply.Taken s'.supply k.uuid) :
    s.Proceeds s' := by
  refine .of_kept extended fun sound _ => ⟨⟨within, ?_, ?_, ?_, ?_, ?_⟩,
    sound.linked.of_links (fun k => congrArg (Option.map Node.links) (nodes k)) ?_⟩
  · exact fun found => ⟨_, (nodes _).trans found, rfl⟩
  · exact fun k => .inl (nodes k)
  · exact fun found new => absurd (new.symm.trans ((nodes _).symm.trans found)) (by simp)
  · exact fun found => (edges found).imp_right And.right
  · exact fun empty => absurd empty notes
  · exact fun found => (edges found).elim sound.linked.edgeFiled And.left

/-- A node has come to a stack, which is marked with it. -/
theorem push_proceeds {stack : NodeId} {index : Option Nat} {kind : NodeKind}
    (run : s.graph.push env stack index kind s.supply = (.ok id, g', supply')) :
    s.Proceeds (({ s with graph := g', supply := supply' }.markNode stack).markNode id) := by
  obtain ⟨identity, extended, holder, n, slot, found, isStack, within, rfl, stands, bare, single,
    rework⟩ := Graph.push_spec run
  have taken : s.supply.Taken supply' n.id.uuid := identity ▸ IdSupply.taken_fresh extended
  refine .of_kept ((IdSupply.extends_fresh _).trans extended) fun sound lasts => ?_
  have fresh := sound.absent n.id taken lasts
  refine ⟨.of_reworked rework ((ChangeList.within_mark _ _).trans (ChangeList.within_mark _ _))
    (ChangeList.mem_mark_self _ _) ?_ ?_ ?_ rfl,
    rework.linked (sound.linked.stackNode fresh found isStack within stands bare single)⟩
  · intro k m foundK
    obtain ⟨m', foundK', parent, -⟩ := Graph.stackNode_kept fresh found within foundK
    exact ⟨m', foundK', parent⟩
  · intro k other
    by_cases here : k = stack
    · exact .inr (ChangeList.mem_mark.mpr (.inr (here ▸ ChangeList.mem_mark_self _ _)))
    · exact .inl (by rw [Graph.node?_stackNode fresh found, if_neg here, if_neg other])
  · intro k m foundK new
    rcases Graph.stackNode_cases fresh found foundK with ⟨rfl, -⟩ | ⟨rfl, -⟩ | ⟨-, old⟩
    · simp [new] at found
    · exact taken
    · simp [new] at old

/-- A node has come to the graph, and is marked. -/
theorem spawn_proceeds {kind : NodeKind} {position : Position}
    (run : s.graph.spawn env kind position s.supply = (.ok id, g', supply')) :
    s.Proceeds ({ s with graph := g', supply := supply' }.markNode id) := by
  obtain ⟨identity, extended, n, rfl, free, bare, rework⟩ := Graph.spawn_spec run
  have taken : s.supply.Taken supply' n.id.uuid := identity ▸ IdSupply.taken_fresh extended
  refine .of_kept ((IdSupply.extends_fresh _).trans extended) fun sound lasts => ?_
  have fresh := sound.absent n.id taken lasts
  refine ⟨.of_reworked rework (ChangeList.within_mark _ _) (ChangeList.mem_mark_self _ _) ?_ ?_ ?_
    rfl, rework.linked (sound.linked.addNode fresh free bare)⟩
  · intro k m foundK
    refine ⟨m, ?_, rfl⟩
    rw [Graph.node?_addNode, if_neg, foundK]
    rintro rfl
    simp [fresh] at foundK
  · exact fun k other => .inl (by rw [Graph.node?_addNode, if_neg other])
  · intro k m foundK new
    rw [Graph.node?_addNode] at foundK
    split at foundK
    · rename_i same
      exact same ▸ taken
    · simp [new] at foundK

theorem createNode_proceeds {kind : NodeKind} {position : Position} {place : Option StackPlace}
    (run : s.createNode env kind position place = .ok s') : s.Proceeds s' := by
  unfold createNode at run
  split at run
  · split at run
    · simp at run
    · rename_i pushed
      obtain rfl := Except.ok.inj run
      exact push_proceeds pushed
  · split at run
    · simp at run
    · rename_i spawned
      obtain rfl := Except.ok.inj run
      exact spawn_proceeds spawned

/-- An edge is gone, or was not there, and that is noted. -/
theorem disconnect_proceeds (s : EditorState) (edge : EdgeId) :
    s.Proceeds { s with
      graph := (s.graph.disconnect edge).2, changes := s.changes.markDeleted edge } := by
  refine .of_edges (.refl _) (ChangeList.within_markDeleted _ _)
    (ChangeList.not_isEmpty_of_deleted (ChangeList.mem_markDeleted.mpr (.inl rfl))) (fun _ => rfl) ?_
  intro k e found
  have erased : (s.graph.disconnect edge).2.edge? k = if k = edge then none else s.graph.edge? k :=
    OrderedMap.get?_erase
  replace found := erased.symm.trans found
  split at found
  · simp at found
  · exact .inl found

theorem deleteEdge_proceeds (s : EditorState) (edge : EdgeId) : s.Proceeds (s.deleteEdge edge) := by
  unfold deleteEdge
  split
  · rename_i e graph gone
    have same : graph = (s.graph.disconnect edge).2 := by rw [gone]
    exact same ▸ disconnect_proceeds s edge
  · exact .refl s

theorem disconnectEdge_proceeds (edge : EdgeId) (run : s.disconnectEdge edge = .ok s') :
    s.Proceeds s' := by
  unfold disconnectEdge at run
  split at run
  · rename_i e graph gone
    obtain rfl := Except.ok.inj run
    have same : graph = (s.graph.disconnect edge).2 := by rw [gone]
    exact same ▸ disconnect_proceeds s edge
  · simp at run

theorem deleteNode_proceeds (s : EditorState) (id : NodeId) : s.Proceeds (s.deleteNode id) := by
  unfold deleteNode
  split
  · exact .refl s
  · rename_i n found
    split
    · exact .refl s
    · refine ⟨.refl _, fun sound _ => noted_without sound.linked found (sound.linked.remove_spec found) (fun x member => ?_) ?_⟩
      · refine ChangeList.mem_markNodes.mpr (.inr ⟨x, ?_, rfl⟩)
        rwa [Graph.children_eq found]
      · exact (ChangeList.within_markAllDeleted _ _).trans (ChangeList.within_markNodes _ _)

/-- A call is edited and marked when it is refreshed. -/
theorem refreshCall_reworks (env : DefinitionEnv) (s : EditorState)
    (call : (s.graph.node? id).any (fun n => n.kind.call?.isSome) = true) :
    Graph.Reworked id s.graph (s.refreshCall env id).graph ∧
      s.supply.Extends (s.refreshCall env id).supply ∧
      s.changes.Within (s.refreshCall env id).changes ∧
      .node id ∈ (s.refreshCall env id).changes.changed.keys := by
  unfold refreshCall
  rw [if_pos call]
  obtain ⟨extended, rework⟩ := Graph.inferNode_spec s.graph env id s.supply
  exact ⟨rework, extended, ChangeList.within_mark _ _, ChangeList.mem_mark_self _ _⟩

theorem refreshCall_proceeds (env : DefinitionEnv) (s : EditorState) (id : NodeId) :
    s.Proceeds (s.refreshCall env id) := by
  by_cases call : (s.graph.node? id).any (fun n => n.kind.call?.isSome) = true
  · obtain ⟨rework, extended, within, marked⟩ := refreshCall_reworks env s call
    exact .of_reworked rework extended within marked
  · rw [refreshCall, if_neg call]
    exact .refl s

theorem connectPorts_proceeds {source target : NodeId} {output input : String}
    (run : s.connectPorts env source output target input = .ok s') : s.Proceeds s' := by
  unfold connectPorts at run
  split at run
  · simp at run
  · rename_i edge graph supply connected
    obtain rfl := Except.ok.inj run
    obtain ⟨identity, rfl, e, rfl, nodes, edges⟩ := Graph.connectByName_spec connected
    refine .trans ?_ ((refreshCall_proceeds env _ source).trans (refreshCall_proceeds env _ target))
    have marked := ChangeList.mem_mark_self s.changes (.edge e.id)
    refine .of_edges (IdSupply.extends_fresh _) (ChangeList.within_mark _ _)
      (ChangeList.not_isEmpty_of_mem marked) nodes ?_
    intro k e' found
    replace found := (edges k).symm.trans found
    split at found
    · rename_i same
      obtain rfl := Option.some.inj found
      refine .inr ⟨same.symm, same ▸ marked, ?_⟩
      rw [same, identity]
      exact IdSupply.taken_fresh (.refl _)
    · exact .inl found

theorem editNode_proceeds {edit : Graph → NodeId → Except GraphError Graph}
    (run : s.editNode edit id = .ok s')
    (reworks : ∀ {g g'}, edit g id = .ok g' → Graph.Reworked id g g') : s.Proceeds s' := by
  unfold editNode at run
  cases edited : edit s.graph id with
  | error e => simp [edited, ofGraphEdit, Except.map] at run
  | ok g' =>
    rw [edited] at run
    obtain rfl := Except.ok.inj run
    exact .of_reworked (reworks edited) (.refl _) (ChangeList.within_mark _ _)
      (ChangeList.mem_mark_self _ _)

theorem editNodeIf_proceeds {test : Node → Bool} {edit : Graph → Node → Except GraphError Graph}
    (run : s.editNodeIf test edit id = .ok s')
    (reworks : ∀ {n g g'}, edit g n = .ok g' → Graph.Reworked id g g') : s.Proceeds s' := by
  unfold editNodeIf at run
  split at run
  · simp at run
  · split at run
    · exact editNode_proceeds run reworks
    · obtain rfl := Except.ok.inj run
      exact .refl s

theorem moveNode_proceeds {delta : Position} (run : s.moveNode delta id = .ok s') : s.Proceeds s' :=
  editNodeIf_proceeds run fun edited => Graph.changeUnlocked_reworked edited fun _ => rfl

theorem collapseNode_proceeds {collapsed : Bool} (run : s.collapseNode collapsed id = .ok s') :
    s.Proceeds s' := by
  refine editNodeIf_proceeds run fun edited => Graph.change_reworked edited fun n => ?_
  split <;> rfl

theorem renameNode_proceeds {title : String} (run : s.renameNode id title = .ok s') :
    s.Proceeds s' := by
  unfold renameNode at run
  split at run
  · simp at run
  · split at run
    · exact editNode_proceeds run fun edited => Graph.changeUnlocked_reworked edited fun _ => rfl
    · simp at run

/-- A node whose method has been changed is a call, so it is marked when it is refreshed. -/
theorem changeMethod_proceeds {method : MethodRef} (run : s.changeMethod env id method = .ok s') :
    s.Proceeds s' := by
  unfold changeMethod at run
  split at run
  · simp at run
  · rename_i graph supply changed
    obtain rfl := Except.ok.inj run
    obtain ⟨extended, rework, call⟩ := Graph.setCallMethod_spec changed
    obtain ⟨rework', extended', within, marked⟩ := refreshCall_reworks env
      ({ s with graph, supply }.markAllDeleted
        ((edgeIdsOf s.graph id).filter fun edge => (graph.edge? edge).isNone)) call
    exact .of_reworked (rework.trans rework') (extended.trans extended')
      ((ChangeList.within_markAllDeleted _ _).trans within) marked

section Runs

variable {α : Type} {R : EditorState → EditorState → Prop} (refl : ∀ s, R s s)
  (trans : ∀ {s s' s''}, R s s' → R s' s'' → R s s'')

include refl trans

/-- Steps that are taken one after the other keep what each of them keeps. -/
theorem foldl_keeps {step : EditorState → α → EditorState} (each : ∀ s x, R s (step s x))
    (items : List α) (s : EditorState) : R s (items.foldl step s) := by
  induction items generalizing s with
  | nil => exact refl s
  | cons x rest ih => exact trans (each s x) (ih (step s x))

theorem foldlM_keeps {step : EditorState → α → Edited}
    (each : ∀ {s s'} x, step s x = .ok s' → R s s') {items : List α}
    (run : items.foldlM step s = .ok s') : R s s' := by
  induction items generalizing s with
  | nil =>
    obtain rfl := Except.ok.inj run
    exact refl s
  | cons x rest ih =>
    rw [List.foldlM_cons] at run
    cases first : step s x with
    | error e => simp [first, bind, Except.bind] at run
    | ok next =>
      rw [first] at run
      exact trans (each x first) (ih run)

end Runs

theorem foldl_proceeds {α : Type} {step : EditorState → α → EditorState}
    (each : ∀ (s : EditorState) x, s.Proceeds (step s x)) (items : List α) (s : EditorState) :
    s.Proceeds (items.foldl step s) :=
  foldl_keeps .refl .trans each items s

theorem foldlM_proceeds {α : Type} {step : EditorState → α → Edited}
    (each : ∀ {s s' : EditorState} x, step s x = .ok s' → s.Proceeds s') {items : List α}
    (run : items.foldlM step s = .ok s') : s.Proceeds s' :=
  foldlM_keeps .refl .trans each run

/-- An action either forgets the changes, or says that the graph has been saved, or edits the graph,
which may differ then from the one that was saved. -/
theorem run_edits {action : EditorAction} (run : action.run env s = .ok s') :
    action = .acknowledgeChanges ∧ s' = { s with changes := .empty } ∨
      action = .markSaved ∧ s' = { s with dirty := false } ∨
      action.edit env { s with dirty := true } = .ok s' := by
  cases action with
  | acknowledgeChanges => exact .inl ⟨rfl, (Except.ok.inj run).symm⟩
  | markSaved => exact .inr (.inl ⟨rfl, (Except.ok.inj run).symm⟩)
  | _ => exact .inr (.inr run)

/-- Whatever an action does but to acknowledge changes, it notes. -/
theorem run_proceeds {action : EditorAction} (other : action ≠ .acknowledgeChanges)
    (run : action.run env s = .ok s') : s.Proceeds s' := by
  have dirty : ∀ d, s.Proceeds { s with dirty := d } := fun _ => .of_same rfl rfl rfl
  cases action with
  | acknowledgeChanges => exact absurd rfl other
  | markSaved =>
    obtain rfl := Except.ok.inj run
    exact dirty false
  | createNode kind position place => exact (dirty true).trans (createNode_proceeds run)
  | deleteElements nodes edges =>
    obtain rfl := Except.ok.inj run
    exact (dirty true).trans ((foldl_proceeds deleteEdge_proceeds edges _).trans
      (foldl_proceeds deleteNode_proceeds nodes _))
  | connectPorts source output target input => exact (dirty true).trans (connectPorts_proceeds run)
  | disconnectEdges edges =>
    exact (dirty true).trans (foldlM_proceeds disconnectEdge_proceeds run)
  | moveNodes nodes delta => exact (dirty true).trans (foldlM_proceeds (fun _ => moveNode_proceeds) run)
  | setLocked nodes locked =>
    refine (dirty true).trans (foldlM_proceeds (fun id run => ?_) run)
    exact editNode_proceeds run fun edited => Graph.change_reworked edited fun _ => rfl
  | setColor nodes color =>
    refine (dirty true).trans (foldlM_proceeds (fun id run => ?_) run)
    exact editNode_proceeds run fun edited => Graph.change_reworked edited fun _ => rfl
  | setCollapsed nodes collapsed =>
    exact (dirty true).trans (foldlM_proceeds (fun _ => collapseNode_proceeds) run)
  | renameNode node title => exact (dirty true).trans (renameNode_proceeds run)
  | changeMethod node method => exact (dirty true).trans (changeMethod_proceeds run)
  | setConstant node input value =>
    have run : editNode (fun g id => g.setConstant id input value) { s with dirty := true } node =
      .ok s' := run
    exact (dirty true).trans
      (editNode_proceeds run fun edited => Graph.setConstant_reworked edited)
  | other name =>
    obtain rfl := Except.ok.inj run
    exact dirty true

end EditorState

end NodeScript
