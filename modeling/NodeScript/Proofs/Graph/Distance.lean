import NodeScript.Proofs.Graph.SureReach

/-!
The distances of stacks. A search that looks at stacks in the order in which they were found gives
every stack that can be reached its least number of steps, and it has looked at all of them before
the bound that the graph gives is met.
-/

namespace NodeScript

namespace Graph

open Relation

/-- The stacks that a number of steps leads to. -/
def StepsIn (g : Graph) (o : NodeId) : Nat → NodeId → Prop
  | 0, t => t = o
  | n + 1, t => ∃ m, g.StepsIn o n m ∧ g.StepsTo m t

/-- The search over a queue, without a bound on its steps. -/
inductive MeasureRun (g : Graph) :
    List (NodeId × Nat) → List (NodeId × Nat) → List (NodeId × Nat) → Prop
  | done {found} : MeasureRun g found [] found
  | look {found current distance rest result} :
      MeasureRun g (settle (distance + 1) found rest (g.nextStacks current)).1
        (settle (distance + 1) found rest (g.nextStacks current)).2 result →
      MeasureRun g found ((current, distance) :: rest) result

variable {g : Graph} {o s t x : NodeId} {n d : Nat} {seen queue result : List (NodeId × Nat)}

theorem exists_stepsIn (reach : ReflTransGen g.StepsTo o t) : ∃ n, g.StepsIn o n t := by
  induction reach with
  | refl => exact ⟨0, rfl⟩
  | tail _ step ih =>
    obtain ⟨n, path⟩ := ih
    exact ⟨n + 1, _, path, step⟩

/-- A path either has passed an inevitable stack before its end or still has it ahead. -/
theorem Inevitable.on_path (sure : g.Inevitable x o) (path : g.StepsIn o n t) :
    (∃ m < n, g.StepsIn o m x) ∨ g.Inevitable x t := by
  induction n generalizing t with
  | zero => exact Or.inr (path ▸ sure)
  | succ n ih =>
    obtain ⟨m, before, step⟩ := path
    rcases ih before with ⟨k, earlier, passed⟩ | ahead
    · exact Or.inl ⟨k, by omega, passed⟩
    · by_cases here : m = x
      · exact Or.inl ⟨n, by omega, here ▸ before⟩
      · exact Or.inr ((ahead.cases_ne here).2 t step)

theorem mem_nextStacks : t ∈ g.nextStacks s ↔ g.StepsTo s t := by
  simp [nextStacks, StepsTo]

theorem portTarget?_mem {port : PortId} (target : g.portTarget? port = some t) :
    t ∈ g.edges.values.map (·.input.node) := by
  obtain ⟨e, first, rfl⟩ := Option.map_eq_some_iff.mp target
  exact List.mem_map_of_mem (List.mem_filter.mp (List.mem_of_head? first)).1

/-- Steps lead along edges. -/
theorem StepsTo.mem_targets (step : g.StepsTo s t) : t ∈ g.edges.values.map (·.input.node) := by
  unfold StepsTo successors at step
  split at step
  · split at step
    · exact absurd step List.not_mem_nil
    · obtain ⟨port, -, target⟩ := List.mem_map.mp step
      exact portTarget?_mem target
  · obtain ⟨t', target, same⟩ := List.mem_map.mp step
    obtain rfl := Option.some.inj same
    obtain ⟨n, -, onward⟩ := Option.bind_eq_some_iff.mp (Option.mem_toList.mp target)
    obtain ⟨port, -, onward⟩ := Option.bind_eq_some_iff.mp onward
    exact portTarget?_mem onward

/-- Settling adds the same new stacks to what was found and to the queue, and leaves none out. -/
theorem settle_spec (d : Nat) (nexts : List NodeId) (found queue : List (NodeId × Nat)) :
    ∃ new : List NodeId,
      settle d found queue nexts = (found ++ new.map (·, d), queue ++ new.map (·, d)) ∧
      new.Nodup ∧ (∀ t ∈ new, t ∈ nexts ∧ t ∉ found.map Prod.fst) ∧
      ∀ t ∈ nexts, t ∈ found.map Prod.fst ∨ t ∈ new := by
  induction nexts generalizing found queue with
  | nil => exact ⟨[], by simp [settle], List.nodup_nil, by simp, by simp⟩
  | cons next rest ih =>
    rw [settle]
    by_cases old : next ∈ found.map Prod.fst
    · have present : found.any (·.1 = next) = true := by simpa using old
      obtain ⟨new, result, nodup, fresh, all⟩ := ih found queue
      refine ⟨new, by rw [if_pos present, result], nodup, ?_, ?_⟩
      · exact fun t member => ⟨.tail _ (fresh t member).1, (fresh t member).2⟩
      · exact List.forall_mem_cons.mpr ⟨Or.inl old, all⟩
    · have absent : ¬ found.any (·.1 = next) = true := by
        intro present
        obtain ⟨e, member, same⟩ := List.any_eq_true.mp present
        exact old (List.mem_map.mpr ⟨e, member, by simpa using same⟩)
      obtain ⟨new, result, nodup, fresh, all⟩ := ih (found ++ [(next, d)]) (queue ++ [(next, d)])
      have notAgain : ∀ t ∈ new, t ≠ next ∧ t ∉ found.map Prod.fst := by
        intro t member
        have apart := (fresh t member).2
        simp only [List.map_append, List.mem_append, not_or] at apart
        exact ⟨by simpa using apart.2, apart.1⟩
      refine ⟨next :: new, ?_, ?_, ?_, ?_⟩
      · rw [if_neg absent, result]
        simp
      · exact List.nodup_cons.mpr ⟨fun member => (notAgain next member).1 rfl, nodup⟩
      · refine List.forall_mem_cons.mpr ⟨⟨.head _, old⟩, fun t member => ?_⟩
        exact ⟨.tail _ (fresh t member).1, (notAgain t member).2⟩
      · refine List.forall_mem_cons.mpr ⟨Or.inr (.head _), fun t member => ?_⟩
        rcases all t member with before | now
        · simp only [List.map_append, List.mem_append, List.map_cons, List.map_nil,
            List.mem_singleton] at before
          rcases before with before | rfl
          · exact Or.inl before
          · exact Or.inr (.head _)
        · exact Or.inr (.tail _ now)

/-- How far a search has come: the stacks that it has looked at, the queue of those that it has
found beside them, and that no distance is more than one step ahead of the queue. -/
structure Surveyed (g : Graph) (o : NodeId) (seen queue : List (NodeId × Nat)) : Prop where
  nodup : ((seen ++ queue).map Prod.fst).Nodup
  origin : (o, 0) ∈ seen ++ queue
  path : ∀ e ∈ seen ++ queue, g.StepsIn o e.2 e.1
  sorted : queue.Pairwise (·.2 ≤ ·.2)
  level : ∀ head ∈ queue.head?, ∀ e ∈ seen ++ queue, e.2 ≤ head.2 + 1
  closed : ∀ e ∈ seen, ∀ t, g.StepsTo e.1 t → ∃ k ≤ e.2 + 1, (t, k) ∈ seen ++ queue

theorem Surveyed.start (g : Graph) (o : NodeId) : g.Surveyed o [] [(o, 0)] where
  nodup := by simp
  origin := by simp
  path := by simp [StepsIn]
  sorted := by simp
  level := by simp
  closed := by simp

/-- Whatever was found is the origin or the target of an edge, so there is not much of it. -/
theorem Surveyed.length_le (found : g.Surveyed o seen queue) :
    (seen ++ queue).length ≤ g.edges.size + 1 := by
  have inside : (seen ++ queue).map Prod.fst ⊆ o :: g.edges.values.map (·.input.node) := by
    intro t member
    obtain ⟨⟨t, n⟩, held, rfl⟩ := List.mem_map.mp member
    have path := found.path _ held
    cases n with
    | zero => exact path ▸ .head _
    | succ n =>
      obtain ⟨m, -, step⟩ := path
      exact .tail _ step.mem_targets
  have bound := (List.subperm_of_subset found.nodup inside).length_le
  simpa [OrderedMap.values, OrderedMap.size] using bound

/-- What a search has found after it has looked at one stack more. -/
theorem mem_after_look {new : List NodeId} {rest : List (NodeId × Nat)} {e : NodeId × Nat} :
    e ∈ (seen ++ [(s, d)]) ++ (rest ++ new.map (·, d + 1)) ↔
      e ∈ seen ++ (s, d) :: rest ∨ ∃ t ∈ new, e = (t, d + 1) := by
  simp only [List.mem_append, List.mem_cons, List.mem_map, List.not_mem_nil, or_false, eq_comm]
  tauto

/-- Looking at the stack in front of the queue. -/
theorem Surveyed.look {new : List NodeId} {rest : List (NodeId × Nat)}
    (found : g.Surveyed o seen ((s, d) :: rest)) (nodup : new.Nodup)
    (fresh : ∀ t ∈ new, g.StepsTo s t ∧ t ∉ (seen ++ (s, d) :: rest).map Prod.fst)
    (all : ∀ t, g.StepsTo s t → t ∈ (seen ++ (s, d) :: rest).map Prod.fst ∨ t ∈ new) :
    g.Surveyed o (seen ++ [(s, d)]) (rest ++ new.map (·, d + 1)) := by
  have level : ∀ e ∈ seen ++ (s, d) :: rest, e.2 ≤ d + 1 := found.level (s, d) rfl
  have current : (s, d) ∈ seen ++ (s, d) :: rest := by simp
  have behind : ∀ e ∈ rest ++ new.map (·, d + 1), d ≤ e.2 := by
    intro e member
    rcases List.mem_append.mp member with old | now
    · exact (List.pairwise_cons.mp found.sorted).1 e old
    · obtain ⟨t, -, rfl⟩ := List.mem_map.mp now
      exact Nat.le_succ d
  constructor
  · have keys : ((seen ++ [(s, d)]) ++ (rest ++ new.map (·, d + 1))).map Prod.fst
        = (seen ++ (s, d) :: rest).map Prod.fst ++ new := by
      simp [Function.comp_def]
    rw [keys, List.nodup_append]
    refine ⟨found.nodup, nodup, ?_⟩
    rintro t old _ now rfl
    exact (fresh t now).2 old
  · exact mem_after_look.mpr (Or.inl found.origin)
  · intro e member
    rcases mem_after_look.mp member with old | ⟨t, now, rfl⟩
    · exact found.path e old
    · exact ⟨s, found.path _ current, (fresh t now).1⟩
  · rw [List.pairwise_append]
    refine ⟨(List.pairwise_cons.mp found.sorted).2, ?_, ?_⟩
    · exact List.pairwise_map.mpr (List.pairwise_of_forall fun _ _ => Nat.le_refl _)
    · intro e old e' now
      obtain ⟨t, -, rfl⟩ := List.mem_map.mp now
      exact level e (by simp [old])
  · intro head first e member
    have bound := behind head (List.mem_of_head? first)
    rcases mem_after_look.mp member with old | ⟨t, now, rfl⟩
    · exact Nat.le_trans (level e old) (Nat.succ_le_succ bound)
    · exact Nat.succ_le_succ bound
  · intro e member t step
    rcases List.mem_append.mp member with old | now
    · obtain ⟨k, bound, held⟩ := found.closed e old t step
      exact ⟨k, bound, mem_after_look.mpr (Or.inl held)⟩
    · obtain rfl := List.mem_singleton.mp now
      rcases all t step with old | new
      · obtain ⟨⟨t, k⟩, held, rfl⟩ := List.mem_map.mp old
        exact ⟨k, level _ held, mem_after_look.mpr (Or.inl held)⟩
      · exact ⟨d + 1, Nat.le_refl _, mem_after_look.mpr (Or.inr ⟨t, new, rfl⟩)⟩

/-- One step of the search, said of the list that it works on. -/
theorem Surveyed.settled {rest : List (NodeId × Nat)} (found : g.Surveyed o seen ((s, d) :: rest)) :
    ∃ queue, settle (d + 1) (seen ++ (s, d) :: rest) rest (g.nextStacks s)
        = ((seen ++ [(s, d)]) ++ queue, queue) ∧ g.Surveyed o (seen ++ [(s, d)]) queue := by
  obtain ⟨new, result, nodup, fresh, all⟩ :=
    settle_spec (d + 1) (g.nextStacks s) (seen ++ (s, d) :: rest) rest
  refine ⟨rest ++ new.map (·, d + 1), by rw [result]; simp, found.look nodup ?_ ?_⟩
  · exact fun t member => ⟨mem_nextStacks.mp (fresh t member).1, (fresh t member).2⟩
  · exact fun t step => all t (mem_nextStacks.mpr step)

theorem MeasureRun.surveyed {found : List (NodeId × Nat)} (run : g.MeasureRun found queue result)
    (split : found = seen ++ queue) (start : g.Surveyed o seen queue) : g.Surveyed o result [] := by
  induction run generalizing seen with
  | done => simpa [split] using start
  | look run ih =>
    subst split
    obtain ⟨queue, result, next⟩ := start.settled
    rw [result] at ih
    exact ih rfl next

theorem MeasureRun.unique {found queue result result' : List (NodeId × Nat)}
    (run : g.MeasureRun found queue result) (run' : g.MeasureRun found queue result') :
    result = result' := by
  induction run with
  | done => cases run'; rfl
  | look _ ih =>
    cases run' with
    | look rest => exact ih rest

/-- With a step left for every edge whose target has not been looked at, the search within a number
of steps is the search without a bound. -/
theorem measure_run (steps : Nat) (start : g.Surveyed o seen queue)
    (enough : g.edges.size < seen.length + steps) :
    g.MeasureRun (seen ++ queue) queue (g.measure steps (seen ++ queue) queue) := by
  induction steps generalizing seen queue with
  | zero =>
    cases queue with
    | nil => rw [measure]; exact .done
    | cons head rest =>
      have bound := start.length_le
      simp only [List.length_append, List.length_cons] at bound
      omega
  | succ steps ih =>
    cases queue with
    | nil => rw [measure]; exacts [.done, nofun]
    | cons head rest =>
      obtain ⟨s, d⟩ := head
      obtain ⟨queue, result, next⟩ := start.settled
      have onward := ih next (by simp only [List.length_append, List.length_singleton]; omega)
      rw [measure, result]
      exact .look (by rw [result]; exact onward)

/-- The number of steps that the graph gives is never used up: the search from a stack is a run
without a bound. -/
theorem distances_run (g : Graph) (o : NodeId) :
    g.MeasureRun [(o, 0)] [(o, 0)] (g.distances o) :=
  measure_run (g.edges.size + 1) (.start g o) (by simp)

theorem distances_surveyed (g : Graph) (o : NodeId) : g.Surveyed o (g.distances o) [] :=
  (g.distances_run o).surveyed rfl (.start g o)

/-- The distance of a stack is the number of steps of a path. -/
theorem stepsIn_of_mem_distances (member : (t, d) ∈ g.distances o) : g.StepsIn o d t :=
  (g.distances_surveyed o).path _ (by simpa using member)

/-- A stack at the end of a path has a distance, which is no longer than the path. -/
theorem exists_distance_le (path : g.StepsIn o n t) : ∃ d ≤ n, (t, d) ∈ g.distances o := by
  have found := g.distances_surveyed o
  induction n generalizing t with
  | zero =>
    obtain rfl : t = o := path
    exact ⟨0, Nat.le_refl _, by simpa using found.origin⟩
  | succ n ih =>
    obtain ⟨m, before, step⟩ := path
    obtain ⟨d, bound, held⟩ := ih before
    obtain ⟨k, next, held⟩ := found.closed _ held t step
    exact ⟨k, by simp only at next; omega, by simpa using held⟩

/-- The search gives a stack the number of steps of a shortest path. -/
theorem mem_distances_iff : (t, d) ∈ g.distances o ↔
    g.StepsIn o d t ∧ ∀ n, g.StepsIn o n t → d ≤ n := by
  have nodup : ((g.distances o).map Prod.fst).Nodup := by
    simpa using (g.distances_surveyed o).nodup
  constructor
  · intro member
    refine ⟨stepsIn_of_mem_distances member, fun n path => ?_⟩
    obtain ⟨d', bound, member'⟩ := exists_distance_le path
    have same := List.inj_on_of_nodup_map nodup member member' rfl
    exact (Prod.mk.inj same).2 ▸ bound
  · rintro ⟨path, least⟩
    obtain ⟨d', bound, member⟩ := exists_distance_le path
    have same : d = d' := Nat.le_antisymm (least d' (stepsIn_of_mem_distances member)) bound
    exact same ▸ member

end Graph

end NodeScript
