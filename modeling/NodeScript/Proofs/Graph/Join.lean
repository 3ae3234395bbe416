import Mathlib.Data.List.Permutation
import Mathlib.Data.Prod.Lex
import Mathlib.Order.WithBot
import NodeScript.Proofs.Graph.Distance
import NodeScript.Proofs.Graph.Recall

/-!
Joins. The join of several stacks lies on every walk from all of them, whether or not execution can
come back to a stack. Where it cannot, the join is missing only if no stack lies on all walks, and
every other stack that does comes behind the join.
-/

namespace NodeScript

open Relation

theorem mem_foldl_commonMembers {x : NodeId} {lists : List (List NodeId)} {first : List NodeId} :
    x ∈ lists.foldl commonMembers first ↔ x ∈ first ∧ ∀ list ∈ lists, x ∈ list := by
  induction lists generalizing first with
  | nil => simp
  | cons list rest ih =>
    rw [List.foldl_cons, ih, mem_commonMembers, List.forall_mem_cons, and_assoc]

namespace Graph

/-- What joins are compared by: the total, then the place in the graph, then the identity. A stack
that is not in the graph comes behind those that are. -/
def JoinRank.key (r : JoinRank) : Nat ×ₗ WithTop Nat ×ₗ Nat :=
  toLex (r.total, toLex (r.place.elim ⊤ WithTop.some, r.stack.uuid.bits.toNat))

theorem JoinRank.before_iff {a b : JoinRank} : a.before b = true ↔ a.key < b.key := by
  unfold before key
  rw [Prod.Lex.toLex_lt_toLex, Prod.Lex.toLex_lt_toLex]
  split <;> rename_i compared
  · simp [compared]
  · rw [ne_eq, not_not] at compared
    cases placeA : a.place with
    | none => cases placeB : b.place <;> simp [compared, Uuid.below]
    | some i =>
      cases placeB : b.place with
      | none => simp [compared]
      | some j =>
        by_cases same : i = j
        · simp [compared, same, Uuid.below]
        · simp [compared, same]

theorem JoinRank.key_injective : Function.Injective JoinRank.key := by
  intro a b same
  obtain ⟨total, same⟩ := Prod.mk.inj (toLex.injective same)
  obtain ⟨place, identity⟩ := Prod.mk.inj (toLex.injective same)
  obtain ⟨totalA, placeA, ⟨⟨bitsA⟩⟩⟩ := a
  obtain ⟨totalB, placeB, ⟨⟨bitsB⟩⟩⟩ := b
  obtain rfl : totalA = totalB := total
  obtain rfl : bitsA = bitsB := BitVec.eq_of_toNat_eq identity
  have same : placeA = placeB := by cases placeA <;> cases placeB <;> simp_all
  rw [same]

theorem JoinRank.total_le_of_key_le {a b : JoinRank} (order : a.key ≤ b.key) : a.total ≤ b.total := by
  rcases Prod.Lex.toLex_le_toLex.mp order with less | ⟨same, -⟩
  · exact Nat.le_of_lt less
  · exact Nat.le_of_eq same

theorem JoinRank.exists_best {ranks : List JoinRank} (some : ranks ≠ []) :
    ∃ best, JoinRank.best? ranks = .some best := by
  cases ranks with
  | nil => exact absurd rfl some
  | cons a rest =>
    rw [JoinRank.best?]
    split
    · exact ⟨_, rfl⟩
    · split <;> exact ⟨_, rfl⟩

theorem JoinRank.best?_eq_none_iff {ranks : List JoinRank} : best? ranks = none ↔ ranks = [] := by
  constructor
  · intro missing
    by_contra some
    obtain ⟨best, chosen⟩ := exists_best some
    rw [missing] at chosen
    cases chosen
  · rintro rfl
    rfl

/-- The best of several joins is one of them, and none comes before it. -/
theorem JoinRank.best?_spec {ranks : List JoinRank} {best : JoinRank}
    (chosen : JoinRank.best? ranks = some best) :
    best ∈ ranks ∧ ∀ r ∈ ranks, best.key ≤ r.key := by
  induction ranks generalizing best with
  | nil => simp [JoinRank.best?] at chosen
  | cons a rest ih =>
    rw [JoinRank.best?] at chosen
    split at chosen
    · rename_i none
      obtain rfl := Option.some.inj chosen
      rw [best?_eq_none_iff.mp none]
      simp
    · rename_i b some
      obtain ⟨member, least⟩ := ih some
      split at chosen <;> rename_i order
      · obtain rfl := Option.some.inj chosen
        have nearer : b.key ≤ a.key := le_of_lt (before_iff.mp order)
        exact ⟨.tail _ member, List.forall_mem_cons.mpr ⟨nearer, least⟩⟩
      · obtain rfl := Option.some.inj chosen
        have nearer : a.key ≤ b.key := not_lt.mp fun later => order (before_iff.mpr later)
        refine ⟨.head _, List.forall_mem_cons.mpr ⟨le_refl _, fun r inside => ?_⟩⟩
        exact nearer.trans (least r inside)

/-- A change of ranks that keeps their order keeps the best one. -/
theorem JoinRank.best?_map {f : JoinRank → JoinRank} {ranks : List JoinRank}
    (same : ∀ a ∈ ranks, ∀ b ∈ ranks, (f a).before (f b) = a.before b) :
    JoinRank.best? (ranks.map f) = (JoinRank.best? ranks).map f := by
  induction ranks with
  | nil => rfl
  | cons a rest ih =>
    have ih := ih fun b member c member' => same b (.tail _ member) c (.tail _ member')
    rw [List.map_cons, best?, best?, ih]
    cases chosen : best? rest with
    | none => rfl
    | some b =>
      have member : b ∈ rest := (best?_spec chosen).1
      simp only [Option.map_some, same b (.tail _ member) a (.head _)]
      split <;> rfl

variable {g : Graph} {o s t j p : NodeId} {origins : List NodeId}

/-- The stacks that are sure to be reached from every origin. -/
def joinCandidates (g : Graph) (origins : List NodeId) : List NodeId :=
  match origins.map g.sureReach with
  | [] => []
  | first :: others => others.foldl commonMembers first

/-- The ranks of the stacks that are sure to be reached from every origin. -/
def joinRanks (g : Graph) (origins : List NodeId) : List JoinRank :=
  (g.joinCandidates origins).filterMap fun stack =>
    (totalDistance? (origins.map g.distances) stack).map fun total =>
      JoinRank.mk total (g.nodeIndex? stack) stack

theorem joinOf?_eq (g : Graph) (origins : List NodeId) :
    g.joinOf? origins = (JoinRank.best? (g.joinRanks origins)).map (·.stack) := by
  unfold joinOf? joinRanks joinCandidates
  cases origins <;> rfl

theorem mem_joinCandidates (some : origins ≠ []) :
    s ∈ g.joinCandidates origins ↔ ∀ o ∈ origins, s ∈ g.sureReach o := by
  cases origins with
  | nil => exact absurd rfl some
  | cons o rest => simp [joinCandidates, mem_foldl_commonMembers]

/-- The distance of a stack that a table of distances holds. -/
theorem find?_distances_iff {d : Nat} :
    ((g.distances o).find? (·.1 = s)).map Prod.snd = some d ↔ (s, d) ∈ g.distances o :=
  let nodup := (g.distances_surveyed o).nodup
  OrderedMap.get?_eq_some_iff (m := ⟨g.distances o, by simpa using nodup⟩)

/-- Adds the distance of a stack in one more table. -/
def addDistance (s : NodeId) (total : Option Nat) (table : List (NodeId × Nat)) : Option Nat := do
  let sum ← total
  let (_, distance) ← table.find? (·.1 = s)
  return sum + distance

theorem addDistance_some {table : List (NodeId × Nat)} {d : Nat}
    (held : (table.find? (·.1 = s)).map Prod.snd = some d) (start : Nat) :
    addDistance s (some start) table = some (start + d) := by
  obtain ⟨⟨_, _⟩, found, rfl⟩ := Option.map_eq_some_iff.mp held
  simp [addDistance, found]

/-- A stack that is in every table has a total. -/
theorem exists_total {tables : List (List (NodeId × Nat))}
    (held : ∀ table ∈ tables, ∃ d, (table.find? (·.1 = s)).map Prod.snd = some d) (start : Nat) :
    ∃ total, tables.foldl (addDistance s) (some start) = some total := by
  induction tables generalizing start with
  | nil => exact ⟨start, rfl⟩
  | cons table rest ih =>
    obtain ⟨d, found⟩ := held table (.head _)
    rw [List.foldl_cons, addDistance_some found]
    exact ih (fun table member => held table (.tail _ member)) _

/-- A stack that is nearer in every table has the smaller total, by one at least for each table. -/
theorem total_add_length_le {tables : List (List (NodeId × Nat))}
    (nearer : ∀ table ∈ tables, ∃ a b, (table.find? (·.1 = p)).map Prod.snd = some a ∧
      (table.find? (·.1 = s)).map Prod.snd = some b ∧ a < b) {start start' ahead : Nat}
    (order : start + ahead ≤ start') :
    ∃ a b, tables.foldl (addDistance p) (some start) = some a ∧
      tables.foldl (addDistance s) (some start') = some b ∧ a + tables.length + ahead ≤ b := by
  induction tables generalizing start start' ahead with
  | nil => exact ⟨start, start', rfl, rfl, order⟩
  | cons table rest ih =>
    obtain ⟨d, d', found, found', less⟩ := nearer table (.head _)
    have onward : start + d + (ahead + 1) ≤ start' + d' := by omega
    obtain ⟨a, b, totalA, totalB, bound⟩ := ih (fun table member => nearer table (.tail _ member)) onward
    rw [List.foldl_cons, List.foldl_cons, addDistance_some found, addDistance_some found']
    exact ⟨a, b, totalA, totalB, by rw [List.length_cons]; omega⟩

theorem exists_totalDistance (reach : ∀ o ∈ origins, ReflTransGen g.StepsTo o s) :
    ∃ total, totalDistance? (origins.map g.distances) s = some total := by
  refine exists_total ?_ 0
  intro table member
  obtain ⟨o, origin, rfl⟩ := List.mem_map.mp member
  obtain ⟨n, path⟩ := exists_stepsIn (reach o origin)
  obtain ⟨d, -, held⟩ := exists_distance_le path
  exact ⟨d, find?_distances_iff.mpr held⟩

/-- If every path from every origin to `s` has passed `p` before, then `p` has the smaller total. -/
theorem totalDistance_lt (some : origins ≠ []) (reach : ∀ o ∈ origins, ReflTransGen g.StepsTo o s)
    (passed : ∀ o ∈ origins, ∀ n, g.StepsIn o n s → ∃ m < n, g.StepsIn o m p) :
    ∃ a b, totalDistance? (origins.map g.distances) p = .some a ∧
      totalDistance? (origins.map g.distances) s = .some b ∧ a < b := by
  have nearer : ∀ table ∈ origins.map g.distances, ∃ a b,
      (table.find? (·.1 = p)).map Prod.snd = .some a ∧
        (table.find? (·.1 = s)).map Prod.snd = .some b ∧ a < b := by
    intro table member
    obtain ⟨o, origin, rfl⟩ := List.mem_map.mp member
    obtain ⟨n, path⟩ := exists_stepsIn (reach o origin)
    obtain ⟨b, -, heldB⟩ := exists_distance_le path
    obtain ⟨m, less, earlier⟩ := passed o origin b (stepsIn_of_mem_distances heldB)
    obtain ⟨a, bound, heldA⟩ := exists_distance_le earlier
    exact ⟨a, b, find?_distances_iff.mpr heldA, find?_distances_iff.mpr heldB,
      Nat.lt_of_le_of_lt bound less⟩
  obtain ⟨a, b, totalA, totalB, bound⟩ := total_add_length_le nearer (Nat.le_refl (0 + 0))
  have positive : 0 < (origins.map g.distances).length := by
    rw [List.length_map]
    exact List.length_pos_iff.mpr some
  exact ⟨a, b, totalA, totalB, by omega⟩

/-- A join is sure to be reached from every origin, and nothing else that is has a smaller total. -/
theorem joinOf?_spec (found : g.joinOf? origins = some j) :
    (∀ o ∈ origins, j ∈ g.sureReach o) ∧
      ∃ total, totalDistance? (origins.map g.distances) j = some total ∧
        ∀ s, (∀ o ∈ origins, s ∈ g.sureReach o) → ∀ total',
          totalDistance? (origins.map g.distances) s = some total' → total ≤ total' := by
  rw [joinOf?_eq] at found
  obtain ⟨best, chosen, rfl⟩ := Option.map_eq_some_iff.mp found
  obtain ⟨ranked, least⟩ := JoinRank.best?_spec chosen
  have some : origins ≠ [] := by
    rintro rfl
    simp [joinRanks, joinCandidates] at ranked
  obtain ⟨j, candidate, hasTotal⟩ := List.mem_filterMap.mp ranked
  obtain ⟨total, held, rfl⟩ := Option.map_eq_some_iff.mp hasTotal
  refine ⟨(mem_joinCandidates some).mp candidate, total, held, fun s common total' held' => ?_⟩
  exact JoinRank.total_le_of_key_le (least ⟨total', g.nodeIndex? s, s⟩ (List.mem_filterMap.mpr
    ⟨s, (mem_joinCandidates some).mpr common, by simp [held']⟩))

/-- There is a join if anything is sure to be reached from every origin. -/
theorem exists_join (some : origins ≠ []) (common : ∀ o ∈ origins, s ∈ g.sureReach o) :
    ∃ j, g.joinOf? origins = .some j := by
  obtain ⟨total, held⟩ := exists_totalDistance fun o origin =>
    (inevitable_of_mem_sureReach (common o origin)).reachable
  have ranked : JoinRank.mk total (g.nodeIndex? s) s ∈ g.joinRanks origins :=
    List.mem_filterMap.mpr ⟨s, (mem_joinCandidates some).mpr common, by simp [held]⟩
  obtain ⟨best, chosen⟩ := JoinRank.exists_best (List.ne_nil_of_mem ranked)
  exact ⟨best.stack, by rw [joinOf?_eq, chosen, Option.map_some]⟩

/-- Whatever else is sure to be reached from every origin is still ahead at the join: if it were not,
each way to the join would have passed it before, and it would be nearer. -/
theorem inevitable_of_joinOf? (found : g.joinOf? origins = some j)
    (common : ∀ o ∈ origins, s ∈ g.sureReach o) : g.Inevitable s j := by
  by_contra behind
  obtain ⟨sure, total, held, least⟩ := joinOf?_spec found
  have some : origins ≠ [] := by
    rintro rfl
    simp [joinOf?] at found
  obtain ⟨a, b, totalS, totalJ, less⟩ := totalDistance_lt (p := s) some
    (fun o origin => (inevitable_of_mem_sureReach (sure o origin)).reachable)
    fun o origin n path =>
      ((inevitable_of_mem_sureReach (common o origin)).on_path path).resolve_right behind
  have bound := least s common a totalS
  rw [held, Option.some.injEq] at totalJ
  omega

/-- The two searches from a stack come to their end without a bound on their depth and their steps,
with the results that the bounded ones have. -/
def SearchEnds (g : Graph) (o : NodeId) : Prop :=
  (∃ after, g.SureRun [] ∅ [some o] (some (g.sureReach o)) after) ∧
    g.MeasureRun [(o, 0)] [(o, 0)] (g.distances o)

/-- The search for the join of any stacks comes to its end, and a join lies on every maximal walk
from every one of them, also on walks that never end. -/
theorem joinOf?_unavoidable (g : Graph) (origins : List NodeId) :
    (∀ o ∈ origins, g.SearchEnds o) ∧
      ∀ j, g.joinOf? origins = some j → ∀ o ∈ origins, g.Unavoidable j o := by
  refine ⟨fun o _ => ⟨g.sureReach_run o, g.distances_run o⟩, fun j found o origin => ?_⟩
  exact (inevitable_of_mem_sureReach ((joinOf?_spec found).1 o origin)).unavoidable

/-- Where execution cannot come back to a stack, there is a join exactly if some stack lies on every
walk from every origin, and every other such stack comes behind the join on each of these walks. -/
theorem joinOf?_nearest (g : Graph) (origins : List NodeId) (some : origins ≠ [])
    (forward : g.FlowsForward origins) :
    (g.joinOf? origins = none ↔ ¬ ∃ s, ∀ o ∈ origins, g.Unavoidable s o) ∧
      ∀ j, g.joinOf? origins = .some j →
        (∀ o ∈ origins, g.Unavoidable j o) ∧
          ∀ s, s ≠ j → (∀ o ∈ origins, g.Unavoidable s o) →
            ∀ o ∈ origins, ∀ walk, g.MaximalWalk o walk →
              ∀ i k, walk i = .some j → walk k = .some s → i < k := by
  have common : ∀ s, (∀ o ∈ origins, g.Unavoidable s o) ↔ ∀ o ∈ origins, s ∈ g.sureReach o := by
    intro s
    refine forall₂_congr fun o origin => ?_
    rw [unavoidable_iff_inevitable, mem_sureReach_iff (forward.behind origin .refl)]
  constructor
  · constructor
    · rintro missing ⟨s, always⟩
      obtain ⟨j, found⟩ := exists_join some ((common s).mp always)
      rw [missing] at found
      exact absurd found (by simp)
    · intro never
      cases found : g.joinOf? origins with
      | none => rfl
      | some j => exact absurd ⟨j, (common j).mpr (joinOf?_spec found).1⟩ never
  · intro j found
    refine ⟨(common j).mpr (joinOf?_spec found).1, ?_⟩
    intro s different always o origin walk run i k atJ atS
    have ahead : g.Inevitable s j := inevitable_of_joinOf? found ((common s).mp always)
    by_contra order
    -- `s` would come before the join on this walk and is ahead of it too, so it comes back
    have back : ReflTransGen g.StepsTo s j := run.reaches (by omega) atS atJ
    have away := (reflTransGen_iff_eq_or_transGen.mp back).resolve_left fun same => different same.symm
    exact forward o origin s (run.reachable atS) (away.trans_left ahead.reachable)

/-- A number that rises with every step leaves no way back. -/
theorem FlowsForward.of_rank (rank : NodeId → Nat)
    (rising : ∀ s ∈ g.nodes.keys, ∀ t ∈ g.nextStacks s, rank s < rank t) :
    g.FlowsForward origins := by
  have rises : ∀ {s t}, TransGen g.StepsTo s t → rank s < rank t := by
    intro s t path
    induction path with
    | single step => exact rising _ step.mem_keys _ (mem_nextStacks.mpr step)
    | tail _ step ih => exact Nat.lt_trans ih (rising _ step.mem_keys _ (mem_nextStacks.mpr step))
  intro _ _ s _ cycle
  exact Nat.lt_irrefl _ (rises cycle)

/-- The identity of a number: that of a node, or of one of its ports by their numbers. -/
def numbered (n : Nat) : Uuid := familyIdentity 0 n

/-- A node of a kind with ports in place, the numbers of which follow that of the node. Inputs that
take values hold `true`. -/
def placed (n : Nat) (kind : NodeKind) (parent : Option NodeId) (children : List NodeId)
    (ports : List PortSpec) : NodeId × Node :=
  let made := ports.zipIdx.map fun (spec, i) => spec.toPort ⟨numbered (n + i + 1)⟩ ⟨numbered n⟩
  let inputs := made.filter (·.direction = .input)
  (⟨numbered n⟩,
    { Node.new ⟨numbered n⟩ kind with
      parent, children, inputs
      outputs := made.filter (·.direction = .output)
      constants := .ofList ((inputs.filter (·.kind = .data)).map fun p => (p.id, .bool true))
      defined := true })

/-- An edge between ports, each by the numbers of its node and its own. -/
def wired (n source output target input : Nat) : EdgeId × Edge :=
  (⟨numbered n⟩,
    ⟨⟨numbered n⟩, ⟨⟨numbered source⟩, ⟨numbered output⟩⟩, ⟨⟨numbered target⟩, ⟨numbered input⟩⟩⟩)

/-- A function that chooses between two stacks, which meet again in a third. -/
def diamond : Graph :=
  let stackPorts := [PortSpec.execInput "In", .execOutput "Out"]
  { Graph.empty "Diamond" with
    nodes := ⟨
      [placed 10 (.function (.onEvent .start)) none [⟨numbered 20⟩] [.execOutput "Out"],
        placed 20 .branch (some ⟨numbered 10⟩) []
          [.dataInput "Condition" .bool, .execOutput "Then", .execOutput "Else"],
        placed 30 .stack none [] stackPorts,
        placed 40 .stack none [] stackPorts,
        placed 50 .stack none [] stackPorts], by decide⟩
    edges := ⟨[wired 61 20 22 30 31, wired 62 20 23 40 41, wired 63 30 32 50 51,
      wired 64 40 42 50 51], by decide⟩ }

/-- Both branches of the diamond go on to the stack where they meet. -/
theorem joinOf?_nearest_diamond :
    let branches : List NodeId := [⟨numbered 30⟩, ⟨numbered 40⟩]
    branches ≠ [] ∧ diamond.FlowsForward branches ∧
      diamond.joinOf? branches = some ⟨numbered 50⟩ ∧
      (diamond.joinOf? branches = none ↔
        ¬ ∃ s, ∀ o ∈ branches, diamond.Unavoidable s o) := by
  have forward : diamond.FlowsForward [⟨numbered 30⟩, ⟨numbered 40⟩] :=
    .of_rank (fun s => s.uuid.bits.toNat) (by decide)
  have some : [(⟨numbered 30⟩ : NodeId), ⟨numbered 40⟩] ≠ [] := by decide
  exact ⟨some, forward, by cbv, (joinOf?_nearest diamond _ some forward).1⟩

end Graph

end NodeScript
