import NodeScript.Editor.Action
import NodeScript.Graph.Basic
import NodeScript.Proofs.Graph.Cascade
import NodeScript.Typing.TypeDatabase

/-!
What becomes of the nodes of a graph when an editor deletes elements, whatever is listed for it and
in what order. A node that may not be deleted is passed over, but it goes with a node that holds it
and may be deleted.
-/

namespace NodeScript

open Relation

namespace Graph

variable {g g' : Graph} {gone : NodeId → Bool} {ids ids' : List NodeId} {id k : NodeId}

/-- Whether a node is there, is not locked, and is of a kind that may be deleted. -/
def deletable (g : Graph) (id : NodeId) : Bool :=
  (g.node? id).any fun n => !n.locked && n.capabilities.deletable

/-- What is below some nodes depends on those among them that are there. -/
theorem Below.congr (same : ∀ i, (∃ n, g.node? i = some n) → (i ∈ ids ↔ i ∈ ids')) :
    g.Below ids k ↔ g.Below ids' k := by
  have part : ∀ {few more : List NodeId},
      (∀ i, (∃ n, g.node? i = some n) → i ∈ few → i ∈ more) → g.Below few k → g.Below more k :=
    fun within below => below.mono (fun found => ⟨_, found⟩) (fun listed => listed)
      fun i member found => .of_mem (within i found member) found
  exact ⟨part fun i found => (same i found).mp, part fun i found => (same i found).mpr⟩

/-- What stays may be deleted exactly if it might before. -/
theorem Cut.deletable_eq (cut : Cut gone g g') (found : ∃ n, g'.node? k = some n) :
    g'.deletable k = g.deletable k := by
  obtain ⟨m, found⟩ := found
  obtain ⟨-, n, before, rfl⟩ := cut.exists_of_node? found
  rw [deletable, deletable, found, before]
  rfl

end Graph

namespace EditorState

variable {s : EditorState} {id k : NodeId} {n : Node}

/-- A node that may not be deleted is passed over. -/
theorem deleteNode_graph (s : EditorState) (id : NodeId) : (s.deleteNode id).graph =
    if s.graph.deletable id then (s.graph.remove id).2 else s.graph := by
  unfold deleteNode Graph.deletable
  cases found : s.graph.node? id with
  | none => simp
  | some n =>
    have opposite : (n.locked || !n.capabilities.deletable) =
        !(!n.locked && n.capabilities.deletable) := by simp
    simp only [opposite, Option.any_some]
    split
    · rename_i kept
      rw [if_neg (by simpa only [Bool.not_eq_true', Bool.not_eq_true] using kept)]
    · rename_i free
      rw [if_pos (by simpa only [Bool.not_eq_true', Bool.not_eq_false] using free)]

/-- The deletion of a node takes all that is below it, or nothing if it may not be deleted. -/
theorem deleteNode_cut (s : EditorState) (id : NodeId) :
    ∃ gone, Graph.Cut gone s.graph (s.deleteNode id).graph ∧
      ∀ k, gone k = true ↔ s.graph.Below ([id].filter s.graph.deletable) k := by
  rw [deleteNode_graph]
  cases free : s.graph.deletable id with
  | false =>
    refine ⟨_, .refl _, fun k => ?_⟩
    simp [free, Graph.Below]
  | true =>
    obtain ⟨gone, cut, taken⟩ := (Graph.remove_removes s.graph id).cut
    rw [List.filter_cons_of_pos free, List.filter_nil, if_pos rfl]
    exact ⟨gone, cut, taken⟩

/-- The deletion of nodes takes all that is below those of them that may be deleted at first. -/
theorem deleteNodes_cut (s : EditorState) (ids : List NodeId) :
    ∃ gone, Graph.Cut gone s.graph (ids.foldl deleteNode s).graph ∧
      ∀ k, gone k = true ↔ s.graph.Below (ids.filter s.graph.deletable) k := by
  induction ids generalizing s with
  | nil => exact ⟨_, .refl _, fun k => ⟨nofun, fun ⟨_, _, member, _⟩ => nomatch member⟩⟩
  | cons id rest ih =>
    obtain ⟨gone, cut, taken⟩ := deleteNode_cut s id
    obtain ⟨also, next, takenNext⟩ := ih (s.deleteNode id)
    -- what has gone with the first node is not there to be deleted later on
    have later : ∀ k, also k = true ↔
        (s.deleteNode id).graph.Below (rest.filter s.graph.deletable) k := by
      refine fun k => (takenNext k).trans (Graph.Below.congr fun i found => ?_)
      rw [List.mem_filter, List.mem_filter, cut.deletable_eq found]
    have split : (id :: rest).filter s.graph.deletable =
        [id].filter s.graph.deletable ++ rest.filter s.graph.deletable := by
      rw [← List.filter_append, List.singleton_append]
    rw [List.foldl_cons, split]
    exact ⟨_, cut.trans next, cut.below_trans taken later⟩

/-- The deletion of edges leaves the nodes as they are. -/
theorem deleteEdges_nodes (s : EditorState) (edges : List EdgeId) :
    (edges.foldl deleteEdge s).graph.nodes = s.graph.nodes := by
  induction edges generalizing s with
  | nil => rfl
  | cons edge rest ih =>
    rw [List.foldl_cons, ih, deleteEdge]
    cases found : s.graph.edge? edge with
    | none => simp [Graph.disconnect, found]
    | some e => simp [Graph.disconnect, found]

end EditorState

/-- What a locked node is, and where it is held, after elements have been deleted: it is gone
exactly if some other node is listed for deletion that holds it, directly or in what it holds, and
may be deleted. Else it is what it was but for what it held itself, and so is whatever held it,
which holds it still. -/
theorem EditorAction.delete_locked_iff (env : DefinitionEnv) (s : EditorState) (nodes : List NodeId)
    (edges : List EdgeId) {k : NodeId} {n : Node} (found : s.graph.node? k = some n)
    (locked : n.locked = true) :
    ∃ s', EditorAction.run env s (.deleteElements nodes edges) = .ok s' ∧
      (s'.graph.node? k = none ↔
        ∃ d ∈ nodes, s.graph.deletable d = true ∧ TransGen s.graph.Lists d k) ∧
      ∀ m, s'.graph.node? k = some m →
        m = { n with children := m.children } ∧ m.children.Sublist n.children ∧
        ∀ t h, s.graph.node? t = some h → k ∈ h.children → ∃ h', s'.graph.node? t = some h' ∧
          h' = { h with children := h'.children } ∧ h'.children.Sublist h.children ∧
          k ∈ h'.children := by
  let cleared := edges.foldl EditorState.deleteEdge { s with dirty := true }
  have kept : cleared.graph.nodes = s.graph.nodes :=
    EditorState.deleteEdges_nodes { s with dirty := true } edges
  have same : ∀ i, cleared.graph.node? i = s.graph.node? i :=
    fun i => congrArg (OrderedMap.get? · i) kept
  have lists : cleared.graph.Lists = s.graph.Lists := by
    funext t c
    simp only [Graph.Lists, same]
  have deletable : cleared.graph.deletable = s.graph.deletable := by
    funext i
    simp only [Graph.deletable, same]
  obtain ⟨gone, cut, taken⟩ := EditorState.deleteNodes_cut cleared nodes
  have foundK : cleared.graph.node? k = some n := (same k).trans found
  refine ⟨nodes.foldl EditorState.deleteNode cleared, rfl, ?_, fun m after => ?_⟩
  · have absent : (nodes.foldl EditorState.deleteNode cleared).graph.node? k = none ↔
        gone k = true := by
      rw [cut.nodes, foundK]
      cases gone k <;> simp
    rw [absent, taken]
    constructor
    · rintro ⟨-, d, member, way⟩
      rw [deletable, List.mem_filter] at member
      rw [lists] at way
      rcases reflTransGen_iff_eq_or_transGen.mp way with rfl | inner
      · have free := member.2
        simp [Graph.deletable, found, locked] at free
      · exact ⟨d, member.1, member.2, inner⟩
    · rintro ⟨d, member, free, inner⟩
      refine ⟨⟨n, foundK⟩, d, ?_, ?_⟩
      · rw [deletable]
        exact List.mem_filter.mpr ⟨member, free⟩
      · rw [lists]
        exact inner.to_reflTransGen
  · obtain ⟨stays, n', before, rfl⟩ := cut.exists_of_node? after
    obtain rfl := Option.some.inj (foundK.symm.trans before)
    refine ⟨rfl, List.filter_sublist, fun t h foundT inside => ?_⟩
    have foundT : cleared.graph.node? t = some h := (same t).trans foundT
    have staysT : gone t = false := by
      by_contra out
      have below := (taken t).mp (by simpa using out)
      rw [(taken k).mpr (below.step ⟨h, foundT, inside⟩ ⟨_, foundK⟩)] at stays
      cases stays
    refine ⟨_, cut.node?_of_stays foundT staysT, rfl, List.filter_sublist, ?_⟩
    exact List.mem_filter.mpr ⟨inside, by simp [stays]⟩

namespace Graph

/-- A stack that holds a locked node and another one, beside a locked stack that holds a node. -/
def guarded : Graph :=
  let stackPorts := [PortSpec.execInput "In", .execOutput "Out"]
  let locked : NodeId × Node → NodeId × Node := fun (id, n) => (id, { n with locked := true })
  { Graph.empty "Guarded" with
    nodes := ⟨
      [placed 10 .stack none [⟨numbered 20⟩, ⟨numbered 30⟩] stackPorts,
        locked (placed 20 .branch (some ⟨numbered 10⟩) []
          [.dataInput "Condition" .bool, .execOutput "Then", .execOutput "Else"]),
        placed 30 .branch (some ⟨numbered 10⟩) []
          [.dataInput "Condition" .bool, .execOutput "Then", .execOutput "Else"],
        locked (placed 40 .stack none [⟨numbered 50⟩] stackPorts),
        placed 50 .branch (some ⟨numbered 40⟩) []
          [.dataInput "Condition" .bool, .execOutput "Then", .execOutput "Else"]], by decide⟩ }

end Graph

/-- A locked stack is passed over, with what it holds, and so is a locked node that is listed beside
its neighbour in a stack. -/
theorem EditorAction.delete_locked_iff_guarded :
    let env : DefinitionEnv := ⟨TypeDatabase.standard.toOracle, ∅⟩
    let s := EditorState.opened Graph.guarded Graph.guarded.freshSupply
    let k : NodeId := ⟨Graph.numbered 20⟩
    let nodes : List NodeId := [⟨Graph.numbered 40⟩, k, ⟨Graph.numbered 30⟩]
    ∃ n, s.graph.node? k = some n ∧ n.locked = true ∧
      ∃ s', EditorAction.run env s (.deleteElements nodes []) = .ok s' ∧
        s'.graph.nodes.keys = [⟨Graph.numbered 10⟩, k, ⟨Graph.numbered 40⟩, ⟨Graph.numbered 50⟩] ∧
        (s'.graph.node? k = none ↔
          ∃ d ∈ nodes, s.graph.deletable d = true ∧ TransGen s.graph.Lists d k) ∧
        ∀ m, s'.graph.node? k = some m →
          m = { n with children := m.children } ∧ m.children.Sublist n.children ∧
          ∀ t h, s.graph.node? t = some h → k ∈ h.children → ∃ h', s'.graph.node? t = some h' ∧
            h' = { h with children := h'.children } ∧ h'.children.Sublist h.children ∧
            k ∈ h'.children := by
  intro env s k nodes
  have here : (s.graph.node? k).map Node.locked = some true := by decide
  obtain ⟨n, found, locked⟩ := Option.map_eq_some_iff.mp here
  obtain ⟨s', run, gone, stays⟩ := delete_locked_iff env s nodes [] found locked
  have left : (EditorAction.run env s (.deleteElements nodes [])).toOption.map
      (fun s' => s'.graph.nodes.keys) =
        some [⟨Graph.numbered 10⟩, k, ⟨Graph.numbered 40⟩, ⟨Graph.numbered 50⟩] := by
    decide +kernel
  rw [run] at left
  exact ⟨n, found, locked, s', run, Option.some.inj left, gone, stays⟩

/-- A locked node goes with its stack also where it is listed for deletion itself. -/
theorem EditorAction.delete_takes_locked :
    let env : DefinitionEnv := ⟨TypeDatabase.standard.toOracle, ∅⟩
    let s := EditorState.opened Graph.guarded Graph.guarded.freshSupply
    let k : NodeId := ⟨Graph.numbered 20⟩
    s.graph.Linked ∧ (s.graph.node? k).map Node.locked = some true ∧
      ∃ s', EditorAction.run env s (.deleteElements [k, ⟨Graph.numbered 10⟩] []) = .ok s' ∧
        s'.graph.node? k = none := by
  intro env s k
  exact ⟨.of_entries (by decide) (by decide), by decide, _, rfl, by decide⟩

end NodeScript
