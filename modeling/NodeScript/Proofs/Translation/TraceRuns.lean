import Mathlib.Data.List.Induction
import NodeScript.Proofs.OrderedMap
import NodeScript.Translation.Context

/-!
Runs of the record of traced runs. The numbers of a graph are given out one after the other, each to a
node of its own, and are taken back only when the graph is begun again. What is done for one graph
makes no difference to another.
-/

namespace NodeScript

/-- What may be done to a record. -/
inductive TraceEvent where
  | start (graph : String)
  | register (graph : String) (node : NodeId)
  | hit (graph : String) (index frame : Nat)
  | clear
deriving DecidableEq, Repr

/-- The graph that an event is about, if it is about one. -/
def TraceEvent.graph? : TraceEvent → Option String
  | .start graph | .register graph _ | .hit graph _ _ => some graph
  | .clear => none

/-- A node has been registered for a graph, and the graph was not begun again since. -/
def Registered (events : List TraceEvent) (graph : String) (node : NodeId) : Prop :=
  ∃ before behind, events = before ++ .register graph node :: behind ∧ .start graph ∉ behind

namespace TraceRecord

/-- The record behind an event. -/
def apply (r : TraceRecord) : TraceEvent → TraceRecord
  | .start graph => r.beginGraph graph
  | .register graph node => (r.register graph node).2
  | .hit graph index frame => (r.hit graph index frame).2
  | .clear => r.clearHits

/-- The record behind events. -/
def after (r : TraceRecord) (events : List TraceEvent) : TraceRecord := events.foldl apply r

/-- Two records answer the same about a graph. -/
structure AnswersLike (r r' : TraceRecord) (graph : String) : Prop where
  number : ∀ node, (r.register graph node).1 = (r'.register graph node).1
  node : ∀ index, r.nodeFor? graph index = r'.nodeFor? graph index
  hit : ∀ index frame, (r.hit graph index frame).1 = (r'.hit graph index frame).1
  hits : r.hitsOf graph = r'.hitsOf graph
  frame : ∀ frame, r.hitsInFrame graph frame = r'.hitsInFrame graph frame

variable {r r' : TraceRecord} {graph other : String} {node : NodeId} {event : TraceEvent}
  {events more : List TraceEvent}

@[simp]
theorem after_nil (r : TraceRecord) : r.after [] = r := rfl

@[simp]
theorem after_cons (r : TraceRecord) (event : TraceEvent) (events : List TraceEvent) :
    r.after (event :: events) = (r.apply event).after events := rfl

theorem after_append (r : TraceRecord) (events more : List TraceEvent) :
    r.after (events ++ more) = (r.after events).after more := List.foldl_append

theorem AnswersLike.of_same (nodes : r.nodesOf graph = r'.nodesOf graph)
    (hits : r.hitsOf graph = r'.hitsOf graph) : r.AnswersLike r' graph where
  number node := by
    unfold register
    rw [nodes]
    dsimp only
    split <;> rfl
  node index := by rw [nodeFor?, nodeFor?, nodes]
  hit index frame := by
    unfold TraceRecord.hit nodeFor?
    rw [nodes]
    split <;> rfl
  hits := hits
  frame frame := by rw [hitsInFrame, hitsInFrame, hits]

/-! ### What an event does -/

/-- The nodes of a graph with a node among them, which is put behind the others if it is new. -/
def withNode (nodes : List NodeId) (node : NodeId) : List NodeId :=
  if node ∈ nodes then nodes else nodes ++ [node]

theorem nodesOf_register (r : TraceRecord) (graph : String) (node : NodeId) :
    (r.register graph node).2.nodesOf other =
      if other = graph then withNode (r.nodesOf other) node else r.nodesOf other := by
  have place : (r.nodesOf graph).findIdx? (· = node) = none ↔ node ∉ r.nodesOf graph := by
    simp only [List.findIdx?_eq_none_iff, decide_eq_false_iff_not]
    exact ⟨fun apart member => apart node member rfl, fun missing x member same =>
      missing (same ▸ member)⟩
  unfold register
  dsimp only
  split
  · rename_i i found
    have member : node ∈ r.nodesOf graph := by
      by_contra missing
      rw [place.mpr missing] at found
      cases found
    split
    · rename_i same
      rw [same, withNode, if_pos member]
    · rfl
  · rename_i absent
    rw [nodesOf, OrderedMap.get?_insert]
    split
    · rename_i same
      rw [same, withNode, if_neg (place.mp absent), Option.getD_some]
    · rfl

theorem hitsOf_register (r : TraceRecord) (graph : String) (node : NodeId) :
    (r.register graph node).2.hitsOf other = r.hitsOf other := by
  unfold register
  dsimp only
  split <;> rfl

theorem nodesOf_beginGraph (r : TraceRecord) (graph : String) :
    (r.beginGraph graph).nodesOf other = if other = graph then [] else r.nodesOf other := by
  rw [nodesOf, beginGraph, OrderedMap.get?_insert]
  split <;> rfl

theorem hitsOf_beginGraph (r : TraceRecord) (graph : String) :
    (r.beginGraph graph).hitsOf other = if other = graph then [] else r.hitsOf other := by
  rw [hitsOf, beginGraph, OrderedMap.get?_erase]
  split <;> rfl

theorem nodesOf_hit (r : TraceRecord) (graph : String) (index frame : Nat) :
    (r.hit graph index frame).2.nodesOf other = r.nodesOf other := by
  unfold hit
  split <;> rfl

theorem hitsOf_hit (r : TraceRecord) (graph : String) (index frame : Nat) :
    (r.hit graph index frame).2.hitsOf other =
      if other = graph then
        r.hitsOf other ++ (r.nodeFor? other index).toList.map fun node => ⟨node, frame⟩
      else r.hitsOf other := by
  unfold hit
  cases found : r.nodeFor? graph index with
  | none =>
    by_cases same : other = graph
    · simp [same, found]
    · simp [same]
  | some node =>
    dsimp only
    rw [hitsOf, OrderedMap.get?_insert]
    by_cases same : other = graph
    · simp [same, found]
    · simp [same, hitsOf]

/-- The nodes of a graph behind an event. -/
theorem nodesOf_apply (r : TraceRecord) (event : TraceEvent) :
    (r.apply event).nodesOf graph =
      match event with
      | .start other => if graph = other then [] else r.nodesOf graph
      | .register other node =>
        if graph = other then withNode (r.nodesOf graph) node else r.nodesOf graph
      | _ => r.nodesOf graph := by
  cases event with
  | start other => exact r.nodesOf_beginGraph other
  | register other node => exact r.nodesOf_register other node
  | hit other index frame => exact r.nodesOf_hit other index frame
  | clear => rfl

/-- What is stored of a graph behind an event. -/
theorem hitsOf_apply (r : TraceRecord) (event : TraceEvent) :
    (r.apply event).hitsOf graph =
      match event with
      | .start other => if graph = other then [] else r.hitsOf graph
      | .register _ _ => r.hitsOf graph
      | .hit other index frame =>
        if graph = other then
          r.hitsOf graph ++ (r.nodeFor? graph index).toList.map fun node => ⟨node, frame⟩
        else r.hitsOf graph
      | .clear => [] := by
  cases event with
  | start other => exact r.hitsOf_beginGraph other
  | register other node => exact r.hitsOf_register other node
  | hit other index frame => exact r.hitsOf_hit other index frame
  | clear => rfl

theorem prefix_withNode (nodes : List NodeId) (node : NodeId) : nodes <+: withNode nodes node := by
  unfold withNode
  split
  · exact List.prefix_rfl
  · exact List.prefix_append _ _

theorem mem_withNode {nodes : List NodeId} {x : NodeId} :
    x ∈ withNode nodes node ↔ x ∈ nodes ∨ x = node := by
  unfold withNode
  split
  · rename_i member
    exact ⟨.inl, fun either => either.elim id fun same => same ▸ member⟩
  · rw [List.mem_append, List.mem_singleton]

theorem nodup_withNode {nodes : List NodeId} (nodup : nodes.Nodup) : (withNode nodes node).Nodup := by
  unfold withNode
  split
  · exact nodup
  · rename_i missing
    rw [← List.concat_eq_append]
    exact nodup.concat missing

/-- What is done for one graph makes no difference to another. -/
theorem apply_answersLike (r : TraceRecord) (about : event.graph? = some graph)
    (apart : other ≠ graph) : (r.apply event).AnswersLike r other := by
  cases event with
  | clear => cases about
  | start graph' | register graph' node | hit graph' index frame =>
    obtain rfl := Option.some.inj about
    refine .of_same ?_ ?_
    · simp only [nodesOf_apply, apart, if_false]
    · simp only [hitsOf_apply, apart, if_false]

/-! ### What runs of events leave -/

/-- As long as a graph is not begun again, the nodes that have numbers keep them. -/
theorem prefix_after (r : TraceRecord) (goes : .start graph ∉ events) :
    r.nodesOf graph <+: (r.after events).nodesOf graph := by
  induction events generalizing r with
  | nil => exact List.prefix_rfl
  | cons event rest ih =>
    obtain ⟨here, later⟩ := not_or.mp (mt List.mem_cons.mpr goes)
    refine List.IsPrefix.trans ?_ (ih (r.apply event) later)
    rw [nodesOf_apply]
    cases event with
    | start other =>
      have apart : graph ≠ other := fun same => here (congrArg TraceEvent.start same)
      simp only [apart, if_false, List.prefix_rfl]
    | register other node =>
      dsimp only
      split
      · exact prefix_withNode _ _
      · exact List.prefix_rfl
    | hit | clear => exact List.prefix_rfl

theorem nodup_after (r : TraceRecord) (nodup : (r.nodesOf graph).Nodup) (events : List TraceEvent) :
    ((r.after events).nodesOf graph).Nodup := by
  induction events generalizing r with
  | nil => exact nodup
  | cons event rest ih =>
    refine ih (r.apply event) ?_
    rw [nodesOf_apply]
    cases event with
    | start other =>
      dsimp only
      split
      · exact List.nodup_nil
      · exact nodup
    | register other node =>
      dsimp only
      split
      · exact nodup_withNode nodup
      · exact nodup
    | hit | clear => exact nodup

theorem registered_append_singleton :
    Registered (events ++ [event]) graph node ↔
      event = .register graph node ∨ event ≠ .start graph ∧ Registered events graph node := by
  constructor
  · rintro ⟨before, behind, split, goes⟩
    rcases List.eq_nil_or_concat behind with rfl | ⟨earlier, last, rfl⟩
    · exact .inl (List.append_inj_right' split rfl |> List.singleton_inj.mp)
    · rw [List.concat_eq_append] at split goes
      rw [← List.cons_append, ← List.append_assoc] at split
      obtain ⟨same, rfl⟩ := List.append_singleton_inj.mp split
      rw [List.mem_append, List.mem_singleton, not_or] at goes
      exact .inr ⟨Ne.symm goes.2, before, earlier, same, goes.1⟩
  · rintro (rfl | ⟨other, before, behind, rfl, goes⟩)
    · exact ⟨events, [], rfl, List.not_mem_nil⟩
    · refine ⟨before, behind ++ [event], by simp, ?_⟩
      rw [List.mem_append, List.mem_singleton, not_or]
      exact ⟨goes, Ne.symm other⟩

/-- The nodes that have numbers are those that have been registered since their graph was begun. -/
theorem mem_nodesOf_after_iff :
    node ∈ (empty.after events).nodesOf graph ↔ Registered events graph node := by
  induction events using List.reverseRecOn with
  | nil =>
    constructor
    · exact fun member => absurd member List.not_mem_nil
    · rintro ⟨before, behind, split, -⟩
      simp at split
  | append_singleton earlier event ih =>
    rw [after_append, after_cons, after_nil, nodesOf_apply, registered_append_singleton, ← ih]
    cases event with
    | start other =>
      by_cases same : graph = other
      · simp [same]
      · simp [same, Ne.symm same]
    | register other node' =>
      by_cases same : graph = other
      · simp [same, mem_withNode, or_comm, eq_comm]
      · simp [same, Ne.symm same]
    | hit | clear => simp

/-- What is stored of a graph ran at nodes that have numbers. -/
theorem mem_nodesOf_of_hit {h : TraceHit} (stored : h ∈ (empty.after events).hitsOf graph) :
    h.node ∈ (empty.after events).nodesOf graph := by
  induction events using List.reverseRecOn with
  | nil => exact absurd stored List.not_mem_nil
  | append_singleton earlier event ih =>
    rw [after_append, after_cons, after_nil] at stored ⊢
    rw [nodesOf_apply]
    rw [hitsOf_apply] at stored
    cases event with
    | start other =>
      by_cases same : graph = other
      · simp [same] at stored
      · simp only [same, if_false] at stored ⊢
        exact ih stored
    | register other node =>
      have member := ih stored
      dsimp only
      split
      · exact (prefix_withNode _ _).subset member
      · exact member
    | hit other index frame =>
      dsimp only at stored ⊢
      split at stored
      · rcases List.mem_append.mp stored with earlier | now
        · exact ih earlier
        · obtain ⟨node, found, rfl⟩ := List.mem_map.mp now
          exact List.mem_of_getElem? (Option.mem_toList.mp found)
      · exact ih stored
    | clear => exact absurd stored List.not_mem_nil

/-- A record whose numbers can be resolved, in spite of whatever happened: those of a graph have no
gaps, and none of its nodes has two; they are those of the nodes that have been registered since the
graph was begun, and stay the same until it is begun again; what is stored ran at such nodes; and other
graphs are left alone. -/
structure Resolves (events : List TraceEvent) (graph : String) : Prop where
  dense : ∀ index, ((empty.after events).nodeFor? graph index).isSome ↔
    index < ((empty.after events).nodesOf graph).length
  injective : ∀ i j node, (empty.after events).nodeFor? graph i = some node →
    (empty.after events).nodeFor? graph j = some node → i = j
  numbered : ∀ node, (∃ index, (empty.after events).nodeFor? graph index = some node) ↔
    Registered events graph node
  number : ∀ node, ((empty.after events).register graph node).2.nodeFor? graph
    ((empty.after events).register graph node).1 = some node
  lasts : ∀ more, .start graph ∉ more → ∀ index node,
    (empty.after events).nodeFor? graph index = some node →
      (empty.after (events ++ more)).nodeFor? graph index = some node ∧
        ((empty.after (events ++ more)).register graph node).1 = index
  stored : ∀ h ∈ (empty.after events).hitsOf graph, Registered events graph h.node
  apart : ∀ event other, event.graph? = some graph → other ≠ graph →
    ((empty.after events).apply event).AnswersLike (empty.after events) other

theorem nodeFor?_register (r : TraceRecord) (graph : String) (node : NodeId) :
    (r.register graph node).2.nodeFor? graph (r.register graph node).1 = some node := by
  unfold register
  dsimp only
  split
  · rename_i i found
    obtain ⟨within, same, -⟩ := List.findIdx?_eq_some_iff_getElem.mp found
    rw [nodeFor?, List.getElem?_eq_getElem within]
    exact congrArg some (by simpa using same)
  · simp [nodeFor?, nodesOf]

/-- No node of a graph has two numbers. -/
theorem eq_of_nodeFor? {i j : Nat} (nodup : (r.nodesOf graph).Nodup)
    (first : r.nodeFor? graph i = some node) (second : r.nodeFor? graph j = some node) : i = j := by
  have within : i < (r.nodesOf graph).length := (List.getElem?_eq_some_iff.mp first).1
  exact (List.getElem?_inj within nodup).mp (first.trans second.symm)

/-- The number that a node has is the one that it gets again. -/
theorem register_of_nodeFor? {index : Nat} (nodup : (r.nodesOf graph).Nodup)
    (found : r.nodeFor? graph index = some node) : (r.register graph node).1 = index := by
  have again := r.nodeFor?_register graph node
  have kept : (r.register graph node).2.nodesOf graph = r.nodesOf graph := by
    rw [nodesOf_register, if_pos rfl, withNode, if_pos (List.mem_of_getElem? found)]
  rw [nodeFor?, kept] at again
  exact eq_of_nodeFor? nodup again found

theorem nodeFor?_of_prefix {index : Nat} (within : r.nodesOf graph <+: r'.nodesOf graph)
    (found : r.nodeFor? graph index = some node) : r'.nodeFor? graph index = some node := by
  obtain ⟨more, same⟩ := within
  have inside : index < (r.nodesOf graph).length := (List.getElem?_eq_some_iff.mp found).1
  rw [nodeFor?, ← same, List.getElem?_append_left inside]
  exact found

theorem resolves (events : List TraceEvent) (graph : String) : Resolves events graph := by
  have nodup : ∀ events, ((empty.after events).nodesOf graph).Nodup :=
    nodup_after empty List.nodup_nil
  refine ⟨?_, ?_, ?_, nodeFor?_register _ graph, ?_, ?_, ?_⟩
  · intro index
    rw [nodeFor?, isSome_getElem?]
  · intro i j node first second
    exact eq_of_nodeFor? (nodup events) first second
  · intro node
    rw [← mem_nodesOf_after_iff, List.mem_iff_getElem?]
    rfl
  · intro more goes index node found
    have kept := nodeFor?_of_prefix (prefix_after _ goes) found
    rw [← after_append] at kept
    exact ⟨kept, register_of_nodeFor? (nodup _) kept⟩
  · intro h stored
    exact mem_nodesOf_after_iff.mp (mem_nodesOf_of_hit stored)
  · intro event other about apart
    exact apply_answersLike _ about apart

end TraceRecord

end NodeScript
