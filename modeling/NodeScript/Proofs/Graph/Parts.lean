import NodeScript.Proofs.Graph.Join
import NodeScript.Proofs.Graph.WellFormed

/-!
Parts of a graph that have nothing to do with the rest. Where no edge crosses the border of a part and
no stack either, whatever is asked of the nodes of the part has the same answer when the rest is not
there: what they are connected to, which stacks are sure to be reached from them and how far away, and
where branches meet again. Of the places in the graph only the order matters, and the order is kept.
-/

namespace NodeScript

namespace Graph

open Relation

/-- No edge crosses the border of a part, what stands in a stack of the part belongs to it too, and so
do all functions. -/
structure Detached (g : Graph) (inside : NodeId → Bool) : Prop extends g.WellFormed where
  edges : ∀ {k e}, g.edge? k = some e → inside e.output.node = inside e.input.node
  content : ∀ {s h c}, g.node? s = some h → inside s = true → c ∈ h.children → inside c = true
  functions : ∀ {k n}, g.node? k = some n → inside k = false → n.kind.function? = none

variable {g : Graph} {inside : NodeId → Bool} {k s t o j : NodeId} {n : Node} {p : Port}

theorem node?_inside (here : inside k = true) : (g.part inside).node? k = g.node? k := by
  rw [node?_part, if_pos here]

namespace Detached

variable (detached : g.Detached inside)

include detached

/-! ### Edges -/

/-- Both ends of an edge are inside if one is. -/
theorem ends_inside {e : Edge} (member : e ∈ g.edges.values) {d : PortDirection}
    (here : inside (e.tip d).node = true) :
    inside e.output.node = true ∧ inside e.input.node = true := by
  obtain ⟨i, held⟩ := exists_of_mem_edges member
  have same := detached.edges held
  cases d
  · exact ⟨same.trans here, here⟩
  · exact ⟨here, same.symm.trans here⟩

theorem edges_at_port (found : g.node? k = some n) (here : inside k = true) (own : p ∈ n.ports)
    (d : PortDirection) : (g.part inside).edges.values.filter (fun e => (e.tip d).port = p.id) =
      g.edges.values.filter fun e => (e.tip d).port = p.id := by
  rw [part, OrderedMap.values_filter, List.filter_filter]
  refine List.filter_congr fun e member => ?_
  by_cases meets : (e.tip d).port = p.id
  · have node := detached.tip_node member found own d meets
    obtain ⟨output, input⟩ := detached.ends_inside member (d := d) (node.symm ▸ here)
    simp [meets, output, input]
  · simp [meets]

theorem edgesFrom_part (found : g.node? k = some n) (here : inside k = true) (own : p ∈ n.ports) :
    (g.part inside).edgesFrom p.id = g.edgesFrom p.id :=
  detached.edges_at_port found here own .output

theorem edgesTo_part (found : g.node? k = some n) (here : inside k = true) (own : p ∈ n.ports) :
    (g.part inside).edgesTo p.id = g.edgesTo p.id :=
  detached.edges_at_port found here own .input

theorem portTarget?_part (found : g.node? k = some n) (here : inside k = true) (own : p ∈ n.ports) :
    (g.part inside).portTarget? p.id = g.portTarget? p.id := by
  rw [portTarget?, detached.edgesFrom_part found here own, portTarget?]

theorem portTarget?_inside (found : g.node? k = some n) (here : inside k = true) (own : p ∈ n.ports)
    (target : g.portTarget? p.id = some t) : inside t = true := by
  obtain ⟨e, first, rfl⟩ := Option.map_eq_some_iff.mp target
  obtain ⟨member, meets⟩ := List.mem_filter.mp (List.mem_of_head? first)
  have node := detached.tip_node member found own .output (of_decide_eq_true meets)
  exact (detached.ends_inside member (d := .output) (node.symm ▸ here)).2

theorem source_inside (found : g.node? k = some n) (here : inside k = true) (own : p ∈ n.ports)
    {e : Edge} (enters : e ∈ g.edgesTo p.id) : inside e.output.node = true := by
  obtain ⟨member, meets⟩ := List.mem_filter.mp enters
  have node := detached.tip_node member found own .input (of_decide_eq_true meets)
  exact (detached.ends_inside member (d := .input) (node.symm ▸ here)).1

theorem execTarget?_part (here : inside k = true) (output : String) :
    (g.part inside).execTarget? k output = g.execTarget? k output := by
  rw [execTarget?, execTarget?, node?_inside here]
  cases found : g.node? k with
  | none => rfl
  | some n =>
    cases own : n.output? output with
    | none => simp [own]
    | some p =>
      have member : p ∈ n.ports := Node.mem_ports.mpr (.inr (List.mem_of_find?_eq_some own))
      simp [own, detached.portTarget?_part found here member]

theorem execTarget?_inside (here : inside k = true) {output : String}
    (target : g.execTarget? k output = some t) : inside t = true := by
  obtain ⟨n, found, onward⟩ := Option.bind_eq_some_iff.mp target
  obtain ⟨p, own, target⟩ := Option.bind_eq_some_iff.mp onward
  have member : p ∈ n.ports := Node.mem_ports.mpr (.inr (List.mem_of_find?_eq_some own))
  exact detached.portTarget?_inside found here member target

theorem inputSource?_part (here : inside k = true) (input : String) :
    (g.part inside).inputSource? k input = g.inputSource? k input := by
  unfold inputSource?
  rw [node?_inside here]
  cases found : g.node? k with
  | none => rfl
  | some n =>
    cases own : n.input? input with
    | none => simp [own]
    | some p =>
      have member : p ∈ n.ports := Node.mem_ports.mpr (.inl (List.mem_of_find?_eq_some own))
      simp only [own, Option.bind_eq_bind, Option.bind_some, detached.edgesTo_part found here member]
      cases first : (g.edgesTo p.id).head? with
      | none => rfl
      | some e =>
        have source := detached.source_inside found here member (List.mem_of_head? first)
        simp only [Option.bind_some, node?_inside source]

theorem inputSource?_inside (here : inside k = true) {input : String}
    (source : g.inputSource? k input = some (n, p)) : inside n.id = true := by
  obtain ⟨m, found, onward⟩ := Option.bind_eq_some_iff.mp source
  obtain ⟨q, own, onward⟩ := Option.bind_eq_some_iff.mp onward
  obtain ⟨e, first, onward⟩ := Option.bind_eq_some_iff.mp onward
  obtain ⟨n', foundN, onward⟩ := Option.bind_eq_some_iff.mp onward
  obtain ⟨p', -, same⟩ := Option.bind_eq_some_iff.mp onward
  obtain ⟨rfl, rfl⟩ := Prod.mk.inj (Option.some.inj same)
  have member : q ∈ m.ports := Node.mem_ports.mpr (.inl (List.mem_of_find?_eq_some own))
  rw [detached.nodeFiled foundN]
  exact detached.source_inside found here member (List.mem_of_head? first)

/-! ### Stacks -/

theorem children_inside (here : inside s = true) (member : k ∈ g.children s) : inside k = true := by
  obtain ⟨h, found, member⟩ := exists_of_mem_children member
  exact detached.content found here member

omit detached in
theorem children_part (here : inside s = true) : (g.part inside).children s = g.children s := by
  rw [children, children, node?_inside here]

theorem terminal?_part (here : inside s = true) : (g.part inside).terminal? s = g.terminal? s := by
  have nodes : (g.children s).filterMap (g.part inside).node? = (g.children s).filterMap g.node? :=
    List.filterMap_congr fun c member => node?_inside (detached.children_inside here member)
  rw [terminal?, terminal?, children_part here, nodes]

theorem terminal?_found (here : inside s = true) (last : g.terminal? s = some n) :
    ∃ k, inside k = true ∧ g.node? k = some n := by
  have member := List.mem_of_find?_eq_some last
  obtain ⟨c, member, found⟩ := List.mem_filterMap.mp member
  exact ⟨c, detached.children_inside here member, found⟩

theorem successors_part (here : inside s = true) :
    (g.part inside).successors s = g.successors s := by
  rw [successors, successors, detached.terminal?_part here]
  cases last : g.terminal? s with
  | none => rw [detached.execTarget?_part here]
  | some n =>
    obtain ⟨k, hereK, found⟩ := detached.terminal?_found here last
    have ways : n.execOutputs.map (fun p => (g.part inside).portTarget? p.id) =
        n.execOutputs.map fun p => g.portTarget? p.id := by
      refine List.map_congr_left fun p member => ?_
      have own : p ∈ n.ports := Node.mem_ports.mpr (.inr (List.mem_of_mem_filter member))
      exact detached.portTarget?_part found hereK own
    simp only [ways]

theorem step_inside (here : inside s = true) (step : g.StepsTo s t) : inside t = true := by
  unfold StepsTo successors at step
  cases last : g.terminal? s with
  | none =>
    rw [last] at step
    obtain ⟨t', target, same⟩ := List.mem_map.mp step
    obtain rfl := Option.some.inj same
    exact detached.execTarget?_inside here (Option.mem_toList.mp target)
  | some n =>
    obtain ⟨k, hereK, found⟩ := detached.terminal?_found here last
    rw [last] at step
    dsimp only at step
    split at step
    · cases step
    · obtain ⟨p, member, target⟩ := List.mem_map.mp step
      have own : p ∈ n.ports := Node.mem_ports.mpr (.inr (List.mem_of_mem_filter member))
      exact detached.portTarget?_inside found hereK own target

theorem reach_inside (here : inside o = true) (reach : ReflTransGen g.StepsTo o s) :
    inside s = true := by
  induction reach with
  | refl => exact here
  | tail _ step ih => exact detached.step_inside ih step

theorem functions_part : (g.part inside).functions = g.functions := by
  unfold Graph.functions part OrderedMap.values OrderedMap.filter
  rw [List.filterMap_map, List.filterMap_map, List.filterMap_filter]
  refine List.filterMap_congr fun e member => ?_
  cases here : inside e.1 with
  | true => simp [here]
  | false =>
    have plain := detached.functions (OrderedMap.get?_eq_some_iff.mpr member) here
    simp [plain]

theorem function_inside {f : NodeId} {decl : FunctionDecl} (member : (f, decl) ∈ g.functions) :
    inside f = true := by
  obtain ⟨n, held, made⟩ := List.mem_filterMap.mp member
  obtain ⟨decl', function, same⟩ := Option.map_eq_some_iff.mp made
  obtain ⟨k, held⟩ := OrderedMap.mem_values_iff.mp held
  have found : g.node? k = some n := OrderedMap.get?_eq_some_iff.mpr held
  obtain ⟨rfl, -⟩ := Prod.mk.inj same
  by_contra outside
  rw [detached.nodeFiled found, Bool.not_eq_true] at outside
  rw [detached.functions found outside] at function
  cases function

end Detached

/-! ### Joins -/

namespace Detached

variable (detached : g.Detached inside)

include detached

theorem sureRun_part {pending : List NodeId} {table after : ReachTable}
    {ways : List (Option NodeId)} {through : Option (List NodeId)}
    (run : g.SureRun pending table ways through after)
    (here : ∀ t, some t ∈ ways → inside t = true) :
    (g.part inside).SureRun pending table ways through after := by
  induction run with
  | done => exact .done
  | nowhere _ ih => exact .nowhere (ih fun t later => here t (.tail _ later))
  | known held _ ih => exact .known held (ih fun t later => here t (.tail _ later))
  | again new busy _ ih => exact .again new busy (ih fun t later => here t (.tail _ later))
  | @fresh _ _ t _ _ _ _ _ new idle _ _ ihInner ih =>
    have first := here t (.head _)
    have inner := ihInner fun u step => detached.step_inside first step
    rw [← detached.successors_part first] at inner
    exact .fresh new idle inner (ih fun t later => here t (.tail _ later))

/-- The bounds of the searches differ, but neither is ever met. -/
theorem sureReach_part (here : inside o = true) : (g.part inside).sureReach o = g.sureReach o := by
  obtain ⟨_, run⟩ := (g.part inside).sureReach_run o
  obtain ⟨_, whole⟩ := g.sureReach_run o
  have run' := detached.sureRun_part whole (by simpa using here)
  exact Option.some.inj (run.unique run').1

theorem nextStacks_part (here : inside s = true) :
    (g.part inside).nextStacks s = g.nextStacks s := by
  rw [nextStacks, nextStacks, detached.successors_part here]

theorem measureRun_part {found queue result : List (NodeId × Nat)}
    (run : g.MeasureRun found queue result) (here : ∀ e ∈ queue, inside e.1 = true) :
    (g.part inside).MeasureRun found queue result := by
  induction run with
  | done => exact .done
  | @look found current distance rest result _ ih =>
    obtain ⟨first, later⟩ := List.forall_mem_cons.mp here
    obtain ⟨new, settled, -, fresh, -⟩ :=
      settle_spec (distance + 1) (g.nextStacks current) found rest
    have onward := ih (by
      rw [settled]
      refine List.forall_mem_append.mpr ⟨later, List.forall_mem_map.mpr fun t member => ?_⟩
      exact detached.step_inside first (mem_nextStacks.mp (fresh t member).1))
    rw [← detached.nextStacks_part first] at onward
    exact .look onward

theorem distances_part (here : inside o = true) : (g.part inside).distances o = g.distances o :=
  ((g.part inside).distances_run o).unique
    (detached.measureRun_part (g.distances_run o) (by simpa using here))

theorem joinCandidates_part {origins : List NodeId} (here : ∀ o ∈ origins, inside o = true) :
    (g.part inside).joinCandidates origins = g.joinCandidates origins := by
  have tables : origins.map (g.part inside).sureReach = origins.map g.sureReach :=
    List.map_congr_left fun o member => detached.sureReach_part (here o member)
  rw [joinCandidates, joinCandidates, tables]

end Detached

/-- The place that a stack has in a graph. -/
def JoinRank.placedIn (g : Graph) (r : JoinRank) : JoinRank :=
  { r with place := g.nodeIndex? r.stack }

/-- Ranks of stacks of the part stand in the same order when the rest is not there. -/
theorem JoinRank.before_part {a b : JoinRank} (hereA : inside a.stack = true)
    (hereB : inside b.stack = true) (placeA : a.place = g.nodeIndex? a.stack)
    (placeB : b.place = g.nodeIndex? b.stack) :
    (a.placedIn (g.part inside)).before (b.placedIn (g.part inside)) = a.before b := by
  have places : ∀ {x}, inside x = true → (g.part inside).nodeIndex? x =
      (g.nodeIndex? x).map fun i => (g.nodes.keys.take i).countP inside :=
    fun here => OrderedMap.index?_filter here
  simp only [before, placedIn, placeA, placeB, places hereA, places hereB]
  cases first : g.nodeIndex? a.stack with
  | none => cases g.nodeIndex? b.stack <;> rfl
  | some i =>
    cases second : g.nodeIndex? b.stack with
    | none => rfl
    | some j =>
      have order := OrderedMap.index?_filter_lt_iff first second hereA hereB
      have order' := OrderedMap.index?_filter_lt_iff second first hereB hereA
      have same : (g.nodes.keys.take i).countP inside = (g.nodes.keys.take j).countP inside ↔
          i = j := by omega
      simp only [Option.map_some, ne_eq, same, order]

namespace Detached

variable (detached : g.Detached inside) {origins : List NodeId}

include detached

theorem joinRanks_part (here : ∀ o ∈ origins, inside o = true) :
    (g.part inside).joinRanks origins =
      (g.joinRanks origins).map (JoinRank.placedIn (g.part inside)) := by
  have tables : origins.map (g.part inside).distances = origins.map g.distances :=
    List.map_congr_left fun o member => detached.distances_part (here o member)
  rw [joinRanks, joinRanks, detached.joinCandidates_part here, tables, List.map_filterMap]
  refine List.filterMap_congr fun stack _ => ?_
  rw [Option.map_map]
  rfl

theorem joinRanks_inside (here : ∀ o ∈ origins, inside o = true) {r : JoinRank}
    (member : r ∈ g.joinRanks origins) :
    inside r.stack = true ∧ r.place = g.nodeIndex? r.stack := by
  obtain ⟨stack, candidate, total⟩ := List.mem_filterMap.mp member
  obtain ⟨_, -, rfl⟩ := Option.map_eq_some_iff.mp total
  cases origins with
  | nil => simp [joinCandidates] at candidate
  | cons o rest =>
    have sure := (mem_joinCandidates (by simp)).mp candidate o (.head _)
    exact ⟨detached.reach_inside (here o (.head _)) (inevitable_of_mem_sureReach sure).reachable,
      rfl⟩

theorem joinOf?_part (here : ∀ o ∈ origins, inside o = true) :
    (g.part inside).joinOf? origins = g.joinOf? origins := by
  rw [joinOf?_eq, joinOf?_eq, detached.joinRanks_part here, JoinRank.best?_map, Option.map_map]
  · rfl
  · intro a memberA b memberB
    obtain ⟨hereA, placeA⟩ := detached.joinRanks_inside here memberA
    obtain ⟨hereB, placeB⟩ := detached.joinRanks_inside here memberB
    exact JoinRank.before_part hereA hereB placeA placeB

end Detached

/-- A node that is no function and stands in no stack, and that no edge joins with the rest of the
graph, nor what stands in it. -/
structure Unrelated (g : Graph) (id : NodeId) (n : Node) : Prop where
  found : g.node? id = some n
  plain : n.kind.function? = none
  free : n.parent = none
  edges : ∀ {k e}, g.edge? k = some e →
    (e.output.node ∈ id :: n.children ↔ e.input.node ∈ id :: n.children)

/-- What is left behind a node that is unrelated to it has nothing to do with the node. -/
theorem Unrelated.detached {id : NodeId} (unrelated : g.Unrelated id n) (formed : g.WellFormed) :
    g.Detached (· ∉ id :: n.children) where
  toWellFormed := formed
  edges held := by
    rw [decide_eq_decide, not_iff_not]
    exact unrelated.edges held
  content {s h c} found here member := by
    obtain ⟨m, foundC, stands⟩ := formed.holds found member
    refine decide_eq_true fun gone => of_decide_eq_true here ?_
    rcases List.mem_cons.mp gone with rfl | child
    · obtain rfl := Option.some.inj (unrelated.found.symm.trans foundC)
      cases unrelated.free.symm.trans stands
    · obtain ⟨m', foundC', stands'⟩ := formed.holds unrelated.found child
      obtain rfl := Option.some.inj (foundC.symm.trans foundC')
      obtain rfl := Option.some.inj (stands.symm.trans stands')
      exact .head _
  functions {k m} found outside := by
    have gone : k ∈ id :: n.children := not_not.mp (of_decide_eq_false outside)
    rcases List.mem_cons.mp gone with rfl | child
    · obtain rfl := Option.some.inj (unrelated.found.symm.trans found)
      exact unrelated.plain
    · obtain ⟨m', found', stands⟩ := formed.holds unrelated.found child
      obtain rfl := Option.some.inj (found.symm.trans found')
      exact formed.function?_eq_none found stands

end Graph

end NodeScript
