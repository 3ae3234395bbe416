import Mathlib.Data.List.Perm.Subperm
import Mathlib.Logic.Relation
import NodeScript.Graph.Reach
import NodeScript.Proofs.OrderedMap

/-!
What lies before and behind a node is all that edges lead from and to, however far and however often
they go round. A search looks at nodes in the order in which they were found; since it finds nothing
but ends of edges, and none of them twice, it has looked at all of them before its bound is met.
-/

namespace NodeScript

namespace Graph

open Relation

/-- An edge leads from one node to another. -/
def Connects (g : Graph) (s t : NodeId) : Prop :=
  ∃ e ∈ g.edges.values, e.output.node = s ∧ e.input.node = t

/-- A node is among those that a step leads to. -/
def OneStep (step : NodeId → List NodeId) (s t : NodeId) : Prop := t ∈ step s

/-- The search over a queue, without a bound on its steps. -/
inductive WalkRun (step : NodeId → List NodeId) (start : NodeId) :
    (found queue result : List NodeId) → Prop
  | done {found} : WalkRun step start found [] found
  | look {found current rest result} :
      WalkRun step start (discover start found rest (step current)).1
        (discover start found rest (step current)).2 result →
      WalkRun step start found (current :: rest) result

/-- How far a search has come. What it has looked at and what is still in the queue are the start and
what was found, in that order; and all that was looked at leads to nothing else. -/
structure Explored (step : NodeId → List NodeId) (start : NodeId)
    (seen found queue : List NodeId) : Prop where
  order : seen ++ queue = start :: found
  nodup : (start :: found).Nodup
  path : ∀ t ∈ found, TransGen (OneStep step) start t
  closed : ∀ s ∈ seen, ∀ t ∈ step s, t = start ∨ t ∈ found

variable {g : Graph} {step : NodeId → List NodeId} {start x y s t current : NodeId}
  {seen found queue rest ends result : List NodeId}

/-- The same new nodes are added to what was found and to the queue, and none is left out. -/
theorem discover_spec (start : NodeId) (nexts found queue : List NodeId) :
    ∃ new : List NodeId, discover start found queue nexts = (found ++ new, queue ++ new) ∧
      new.Nodup ∧ (∀ t ∈ new, t ∈ nexts ∧ t ≠ start ∧ t ∉ found) ∧
      ∀ t ∈ nexts, t = start ∨ t ∈ found ++ new := by
  induction nexts generalizing found queue with
  | nil => exact ⟨[], by simp [discover], List.nodup_nil, by simp, by simp⟩
  | cons next rest ih =>
    rw [discover]
    by_cases old : next = start ∨ next ∈ found
    · have known : (decide (next = start) || found.contains next) = true := by simpa using old
      obtain ⟨new, result, nodup, fresh, all⟩ := ih found queue
      rw [if_pos known]
      refine ⟨new, result, nodup, fun t member => ?_, List.forall_mem_cons.mpr ⟨?_, all⟩⟩
      · exact ⟨.tail _ (fresh t member).1, (fresh t member).2⟩
      · exact old.imp_right fun inside => List.mem_append_left _ inside
    · have unknown : ¬ (decide (next = start) || found.contains next) = true := by simpa using old
      obtain ⟨new, result, nodup, fresh, all⟩ := ih (found ++ [next]) (queue ++ [next])
      have apart : ∀ t ∈ new, t ∉ found ∧ t ≠ next := by
        intro t member
        have away := (fresh t member).2.2
        rw [List.mem_append, List.mem_singleton, not_or] at away
        exact away
      rw [if_neg unknown, result]
      simp only [List.append_assoc, List.singleton_append] at all ⊢
      refine ⟨next :: new, rfl, ?_, ?_, ?_⟩
      · exact List.nodup_cons.mpr ⟨fun again => (apart next again).2 rfl, nodup⟩
      · refine List.forall_mem_cons.mpr ⟨⟨.head _, not_or.mp old⟩, fun t member => ?_⟩
        exact ⟨.tail _ (fresh t member).1, (fresh t member).2.1, (apart t member).1⟩
      · refine List.forall_mem_cons.mpr ⟨?_, all⟩
        exact .inr (List.mem_append_right _ (.head _))

namespace Explored

theorem start_only (step : NodeId → List NodeId) (start : NodeId) :
    Explored step start [] [] [start] where
  order := rfl
  nodup := List.nodup_singleton start
  path := by simp
  closed := by simp

/-- One more node has been looked at. -/
theorem look (explored : Explored step start seen found (current :: rest)) :
    Explored step start (seen ++ [current]) (discover start found rest (step current)).1
      (discover start found rest (step current)).2 := by
  obtain ⟨new, result, nodup, fresh, all⟩ := discover_spec start (step current) found rest
  obtain ⟨order, once, path, closed⟩ := explored
  have here : current ∈ start :: found := order ▸ List.mem_append_right _ (.head _)
  rw [result]
  refine ⟨?_, ?_, ?_, ?_⟩
  · rw [List.append_assoc, List.singleton_append, ← List.cons_append, ← List.append_assoc, order]
    rfl
  · rw [← List.cons_append, List.nodup_append]
    refine ⟨once, nodup, fun a old b added same => ?_⟩
    obtain ⟨-, notStart, notFound⟩ := fresh b added
    rcases List.mem_cons.mp old with rfl | old
    · exact notStart same.symm
    · exact notFound (same ▸ old)
  · refine List.forall_mem_append.mpr ⟨path, fun t added => ?_⟩
    have onward : OneStep step current t := (fresh t added).1
    rcases List.mem_cons.mp here with rfl | behind
    · exact .single onward
    · exact (path current behind).tail onward
  · refine List.forall_mem_append.mpr ⟨fun s inside t leads => ?_, ?_⟩
    · exact (closed s inside t leads).imp_right (List.mem_append_left _)
    · rw [List.forall_mem_singleton]
      exact all

theorem length_add (explored : Explored step start seen found queue) :
    seen.length + queue.length = found.length + 1 := by
  simpa using congrArg List.length explored.order

/-- What was found are ends of edges, if steps lead only there. -/
theorem length_le (explored : Explored step start seen found queue)
    (within : ∀ s, step s ⊆ ends) : found.length ≤ ends.length := by
  have inside : found ⊆ ends := by
    intro t member
    obtain ⟨s, -, last⟩ := TransGen.tail'_iff.mp (explored.path t member)
    exact within s last
  exact (List.subperm_of_subset (List.nodup_cons.mp explored.nodup).2 inside).length_le

theorem of_run (run : WalkRun step start found queue result)
    (explored : Explored step start seen found queue) :
    ∃ seen', Explored step start seen' result [] := by
  induction run generalizing seen with
  | done => exact ⟨seen, explored⟩
  | look _ ih => exact ih explored.look

/-- When the queue is empty, all has been found that is reached and is not the start. -/
theorem mem_iff (explored : Explored step start seen found []) :
    t ∈ found ↔ t ≠ start ∧ TransGen (OneStep step) start t := by
  have all : seen = start :: found := by simpa using explored.order
  constructor
  · intro member
    have apart : start ∉ found := (List.nodup_cons.mp explored.nodup).1
    exact ⟨fun same => apart (same ▸ member), explored.path t member⟩
  · rintro ⟨other, reach⟩
    have complete : ∀ t, TransGen (OneStep step) start t → t ∈ start :: found := by
      intro t reach
      induction reach with
      | single step => exact List.mem_cons.mpr (explored.closed start (all ▸ .head _) _ step)
      | tail _ step ih => exact List.mem_cons.mpr (explored.closed _ (all ▸ ih) _ step)
    exact (List.mem_cons.mp (complete t reach)).resolve_left other

end Explored

/-- The bound is never met as long as it leaves a step for each end of an edge and one for the start.
The induction is on the steps that are left. -/
theorem explore_run (within : ∀ s, step s ⊆ ends) (steps : Nat)
    (explored : Explored step start seen found queue) (enough : ends.length < steps + seen.length) :
    WalkRun step start found queue (explore step start steps found queue) := by
  induction steps generalizing seen found queue with
  | zero =>
    have total := explored.length_add
    have bound := explored.length_le within
    have empty : queue = [] := List.length_eq_zero_iff.mp (by omega)
    subst empty
    exact .done
  | succ steps ih =>
    cases queue with
    | nil => exact .done
    | cons current rest =>
      refine .look (ih explored.look ?_)
      rw [List.length_append, List.length_singleton]
      omega

/-- A search over the ends of edges comes to its end with all that is reached, each node once. -/
theorem walk_spec (g : Graph) (start : NodeId) (within : ∀ s, step s ⊆ ends)
    (count : ends.length = g.edges.size) :
    WalkRun step start [] [start] (g.walk step start) ∧ (g.walk step start).Nodup ∧
      ∀ t, t ∈ g.walk step start ↔ t ≠ start ∧ TransGen (OneStep step) start t := by
  have first := Explored.start_only step start
  have run : WalkRun step start [] [start] (g.walk step start) :=
    explore_run within _ first (by simp [count])
  obtain ⟨seen, explored⟩ := first.of_run run
  exact ⟨run, (List.nodup_cons.mp explored.nodup).2, fun t => explored.mem_iff⟩

theorem targets_subset (g : Graph) (s : NodeId) :
    g.targets s ⊆ g.edges.values.map (·.input.node) :=
  List.map_subset _ (List.filter_subset_self _)

theorem sources_subset (g : Graph) (s : NodeId) :
    g.sources s ⊆ g.edges.values.map (·.output.node) :=
  List.map_subset _ (List.filter_subset_self _)

theorem oneStep_targets : OneStep g.targets = g.Connects := by
  funext s t
  simp only [OneStep, targets, Connects, List.mem_map, List.mem_filter, decide_eq_true_eq, and_assoc]

theorem oneStep_sources : OneStep g.sources = Function.swap g.Connects := by
  funext s t
  simp only [OneStep, sources, Connects, Function.swap, List.mem_map, List.mem_filter,
    decide_eq_true_eq, and_assoc, eq_iff_iff]
  constructor
  · rintro ⟨e, inside, atS, atT⟩
    exact ⟨e, inside, atT, atS⟩
  · rintro ⟨e, inside, atT, atS⟩
    exact ⟨e, inside, atS, atT⟩

/-- Both searches come to their end, however the edges go round. What lies behind a node is all that
edges lead to from it without the node itself, each node once; what lies before a node is all that
edges lead from to it; and a node lies behind another exactly if that lies before it. -/
theorem closures_exact (g : Graph) (x : NodeId) :
    (WalkRun g.targets x [] [x] (g.descendants x) ∧ (g.descendants x).Nodup ∧
      ∀ y, y ∈ g.descendants x ↔ y ≠ x ∧ TransGen g.Connects x y) ∧
    (WalkRun g.sources x [] [x] (g.ancestors x) ∧ (g.ancestors x).Nodup ∧
      ∀ y, y ∈ g.ancestors x ↔ y ≠ x ∧ TransGen g.Connects y x) ∧
    ∀ y, y ∈ g.descendants x ↔ x ∈ g.ancestors y := by
  have behind : ∀ x, WalkRun g.targets x [] [x] (g.descendants x) ∧ (g.descendants x).Nodup ∧
      ∀ y, y ∈ g.descendants x ↔ y ≠ x ∧ TransGen g.Connects x y := by
    intro x
    rw [← oneStep_targets]
    exact g.walk_spec x g.targets_subset (by simp [OrderedMap.values, OrderedMap.size])
  have before : ∀ x, WalkRun g.sources x [] [x] (g.ancestors x) ∧ (g.ancestors x).Nodup ∧
      ∀ y, y ∈ g.ancestors x ↔ y ≠ x ∧ TransGen g.Connects y x := by
    intro x
    simp only [← transGen_swap (r := g.Connects), ← oneStep_sources]
    exact g.walk_spec x g.sources_subset (by simp [OrderedMap.values, OrderedMap.size])
  refine ⟨behind x, before x, fun y => ?_⟩
  rw [(behind x).2.2, (before y).2.2, ne_comm]

end Graph

end NodeScript
