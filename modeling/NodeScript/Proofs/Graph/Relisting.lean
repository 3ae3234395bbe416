import NodeScript.Proofs.Graph.Join

/-!
Joins do not depend on the order of the stacks that they are sought for. A join is the least of its
candidates in an order in which no two stacks are alike, so it is told by which stacks are candidates
and by their totals, however they were listed.

The order in which a choice lists its outputs. Where every loop is entered at one stack only it does
not matter to the search for what is sure to be reached, and so neither to joins. Where a loop is
entered at two stacks, what the search has remembered of one of them depends on which of them it came
to first, and then it may miss a join or find one that is further away.
-/

namespace NodeScript

/-! ### Stacks in any order -/

namespace Graph

/-- The best of several joins does not depend on how they are listed. -/
theorem JoinRank.best?_congr {ranks ranks' : List JoinRank} (same : ∀ r, r ∈ ranks ↔ r ∈ ranks') :
    best? ranks = best? ranks' := by
  cases chosen : best? ranks with
  | none =>
    have empty := best?_eq_none_iff.mp chosen
    subst empty
    have empty' : ranks' = [] := List.eq_nil_iff_forall_not_mem.mpr fun r inside =>
      List.not_mem_nil ((same r).mpr inside)
    exact (best?_eq_none_iff.mpr empty').symm
  | some best =>
    obtain ⟨member, least⟩ := best?_spec chosen
    obtain ⟨best', chosen'⟩ := exists_best (List.ne_nil_of_mem ((same best).mp member))
    obtain ⟨member', least'⟩ := best?_spec chosen'
    have key := le_antisymm (least best' ((same best').mpr member'))
      (least' best ((same best).mp member))
    rw [chosen', key_injective key]

variable {g g' : Graph} {origins origins' : List NodeId} {s : NodeId} {r : JoinRank}

theorem mem_joinRanks : r ∈ g.joinRanks origins ↔ r.stack ∈ g.joinCandidates origins ∧
    totalDistance? (origins.map g.distances) r.stack = some r.total ∧
    r.place = g.nodeIndex? r.stack := by
  simp only [joinRanks, List.mem_filterMap, Option.map_eq_some_iff]
  constructor
  · rintro ⟨s, candidate, total, held, rfl⟩
    exact ⟨candidate, held, rfl⟩
  · rintro ⟨candidate, held, place⟩
    exact ⟨r.stack, candidate, r.total, held, by rw [← place]⟩

/-- Joins are told by the candidates, their totals and their places. -/
theorem joinOf?_congr
    (candidates : ∀ s, s ∈ g.joinCandidates origins ↔ s ∈ g'.joinCandidates origins')
    (totals : ∀ s, totalDistance? (origins.map g.distances) s =
      totalDistance? (origins'.map g'.distances) s)
    (places : ∀ s, g.nodeIndex? s = g'.nodeIndex? s) : g.joinOf? origins = g'.joinOf? origins' := by
  have ranks : ∀ r, r ∈ g.joinRanks origins ↔ r ∈ g'.joinRanks origins' := by
    intro r
    rw [mem_joinRanks, mem_joinRanks, candidates, totals, places]
  rw [joinOf?_eq, joinOf?_eq, JoinRank.best?_congr ranks]

theorem addDistance_eq (total : Option Nat) (table : List (NodeId × Nat)) :
    addDistance s total table =
      total.bind fun sum => ((table.find? (·.1 = s)).map Prod.snd).map (sum + ·) := by
  unfold addDistance
  cases total with
  | none => rfl
  | some sum => cases table.find? (·.1 = s) <;> rfl

/-- Distances may be added in any order. -/
theorem addDistance_comm (total : Option Nat) (a b : List (NodeId × Nat)) :
    addDistance s (addDistance s total a) b = addDistance s (addDistance s total b) a := by
  simp only [addDistance_eq]
  cases total with
  | none => rfl
  | some sum =>
    cases (a.find? (·.1 = s)).map Prod.snd with
    | none => cases (b.find? (·.1 = s)).map Prod.snd <;> rfl
    | some distanceA =>
      cases (b.find? (·.1 = s)).map Prod.snd with
      | none => rfl
      | some distanceB => exact congrArg some (Nat.add_right_comm sum distanceA distanceB)

theorem totalDistance?_perm {tables tables' : List (List (NodeId × Nat))} (perm : tables.Perm tables')
    (s : NodeId) : totalDistance? tables s = totalDistance? tables' s :=
  perm.foldl_eq' (fun a _ b _ total => addDistance_comm total a b) (some 0)

theorem mem_joinCandidates_perm (perm : origins.Perm origins') :
    s ∈ g.joinCandidates origins ↔ s ∈ g.joinCandidates origins' := by
  cases origins with
  | nil => rw [List.nil_perm.mp perm]
  | cons o rest =>
    have some : origins' ≠ [] := by
      rintro rfl
      cases List.perm_nil.mp perm
    rw [mem_joinCandidates (List.cons_ne_nil o rest), mem_joinCandidates some]
    exact forall_congr' fun o => imp_congr_left perm.mem_iff

/-- The join of stacks is the same in whatever order they are given, however often one of them is
given, and whether or not execution can come back to a stack. -/
theorem joinOf?_perm (g : Graph) (perm : origins.Perm origins') :
    g.joinOf? origins = g.joinOf? origins' ∧ ∀ a b, g.joinOfTwo? a b = g.joinOfTwo? b a := by
  have same : ∀ {l l' : List NodeId}, l.Perm l' → g.joinOf? l = g.joinOf? l' := fun perm =>
    joinOf?_congr (fun _ => mem_joinCandidates_perm perm)
      (totalDistance?_perm (perm.map g.distances)) fun _ => rfl
  exact ⟨same perm, fun a b => same (.swap b a [])⟩

/-- Two stacks, each of which chooses between the same two others, and those lead to each other for
ever. -/
def roundabout : Graph :=
  let stackPorts := [PortSpec.execInput "In", .execOutput "Out"]
  let branchPorts := [PortSpec.dataInput "Condition" .bool, .execOutput "Then", .execOutput "Else"]
  { Graph.empty "Roundabout" with
    nodes := ⟨
      [placed 10 .stack none [⟨numbered 20⟩] stackPorts,
        placed 20 .branch (some ⟨numbered 10⟩) [] branchPorts,
        placed 30 .stack none [⟨numbered 40⟩] stackPorts,
        placed 40 .branch (some ⟨numbered 30⟩) [] branchPorts,
        placed 50 .stack none [] stackPorts,
        placed 60 .stack none [] stackPorts], by decide⟩
    edges := ⟨[wired 71 20 22 50 51, wired 72 20 23 60 61, wired 73 40 42 50 51,
      wired 74 40 43 60 61, wired 75 50 52 60 61, wired 76 60 62 50 51], by decide⟩ }

theorem joinOf?_perm_roundabout :
    let a : NodeId := ⟨numbered 10⟩
    let b : NodeId := ⟨numbered 30⟩
    [a, b, a].Perm [b, a, a] ∧ roundabout.joinOf? [a, b, a] = some ⟨numbered 60⟩ ∧
      roundabout.joinOf? [b, a, a] = some ⟨numbered 60⟩ := by
  intro a b
  have perm : [a, b, a].Perm [b, a, a] := .swap b a [a]
  have joined : roundabout.joinOf? [a, b, a] = some ⟨numbered 60⟩ := by cbv
  exact ⟨perm, joined, (joinOf?_perm roundabout perm).1 ▸ joined⟩

end Graph

end NodeScript

namespace NodeScript

/-! ### Outputs in any order -/

/-- Lists the outputs of a choice in another order. -/
def Node.relist (order : NodeId → List Port → List Port) (n : Node) : Node :=
  if n.kind.isBranching then { n with outputs := order n.id n.outputs } else n

namespace Graph

open Relation

/-- A graph whose choices list their outputs in another order. -/
def relist (g : Graph) (order : NodeId → List Port → List Port) : Graph :=
  { g with nodes := g.nodes.mapValues fun _ n => n.relist order }

variable {g g' : Graph} {order : NodeId → List Port → List Port} {o s t x : NodeId} {n : Nat}

section Relisting

variable (reorders : ∀ id ports, (order id ports).Perm ports)

theorem node?_relist : (g.relist order).node? s = (g.node? s).map (·.relist order) :=
  OrderedMap.get?_mapValues

theorem nodeIndex?_relist (s : NodeId) : (g.relist order).nodeIndex? s = g.nodeIndex? s := by
  simp only [nodeIndex?, OrderedMap.index?, relist, OrderedMap.mapValues, List.findIdx?_map]
  rfl

theorem relist_kind (n : Node) : (n.relist order).kind = n.kind := by
  unfold Node.relist
  split <;> rfl

theorem relist_children (n : Node) : (n.relist order).children = n.children := by
  unfold Node.relist
  split <;> rfl

theorem terminal?_relist :
    (g.relist order).terminal? s = (g.terminal? s).map (·.relist order) := by
  have held : (g.relist order).children s = g.children s := by
    simp only [children, node?_relist, Option.map_map, Function.comp_def, relist_children]
  have nodes : ∀ ids : List NodeId, ids.filterMap (g.relist order).node? =
      (ids.filterMap g.node?).map (·.relist order) := by
    intro ids
    rw [List.map_filterMap]
    exact List.filterMap_congr fun id _ => node?_relist
  rw [terminal?, held, nodes, List.find?_map]
  simp only [Function.comp_def, relist_kind, terminal?]

include reorders in
/-- Execution goes on to the same stacks, listed in another order. -/
theorem successors_relist (named : ∀ n ∈ g.nodes.values, (n.outputs.map (·.name)).Nodup) (s : NodeId) :
    ((g.relist order).successors s).Perm (g.successors s) := by
  have targets : (g.relist order).portTarget? = g.portTarget? := rfl
  unfold successors
  rw [terminal?_relist, targets]
  cases g.terminal? s with
  | none =>
    have outward : (g.relist order).execTarget? s "Out" = g.execTarget? s "Out" := by
      unfold execTarget?
      rw [node?_relist, targets]
      cases found : g.node? s with
      | none => rfl
      | some n =>
        have listed : (n.relist order).output? "Out" = n.output? "Out" := by
          unfold Node.relist
          split
          · exact find?_key_perm (reorders _ _)
              (named n (OrderedMap.mem_values_of_get? found)) "Out"
          · rfl
        simp only [Option.map_some, Option.bind_eq_bind, Option.bind_some, listed]
    rw [Option.map_none, outward]
  | some terminal =>
    have outputs : (terminal.relist order).execOutputs.Perm terminal.execOutputs := by
      unfold Node.relist
      split
      · exact (reorders _ _).filter _
      · rfl
    simp only [Option.map_some, relist_kind]
    split
    · rfl
    · exact outputs.map _

end Relisting

/-! ### Graphs in which execution goes on alike -/

/-- Execution goes on to the same stacks and may end at the same ones. -/
structure FlowsAlike (g g' : Graph) : Prop where
  steps : ∀ s t, g'.StepsTo s t ↔ g.StepsTo s t
  ends : ∀ s, g'.MayEnd s ↔ g.MayEnd s

namespace FlowsAlike

theorem of_perm (alike : ∀ s, (g'.successors s).Perm (g.successors s)) : g.FlowsAlike g' where
  steps s _ := (alike s).mem_iff
  ends s := or_congr (by rw [← List.perm_nil, ← List.perm_nil, (alike s).congr_left]) (alike s).mem_iff

theorem symm (alike : g.FlowsAlike g') : g'.FlowsAlike g where
  steps s t := (alike.steps s t).symm
  ends s := (alike.ends s).symm

variable (alike : g.FlowsAlike g')

include alike

theorem stepsTo : g'.StepsTo = g.StepsTo := funext₂ fun s t => propext (alike.steps s t)

theorem inevitable (sure : g.Inevitable x s) : g'.Inevitable x s := by
  induction sure with
  | here => exact .here
  | later goesOn _ ih =>
    exact .later (fun stuck => goesOn ((alike.ends _).mp stuck)) fun t step =>
      ih t ((alike.steps _ t).mp step)

theorem simplePath {path : List NodeId} (simple : g'.SimplePath o path) : g.SimplePath o path := by
  induction simple with
  | start => exact .start
  | step _ step new ih => exact ih.step ((alike.steps _ _).mp step) new

theorem loopsEnteredOnce (entered : g.LoopsEnteredOnce o) : g'.LoopsEnteredOnce o := by
  intro path s t simple step member
  rw [Bypasses, alike.stepsTo]
  exact entered path s t (alike.simplePath simple) ((alike.steps s t).mp step) member

theorem stepsIn : g'.StepsIn o n t ↔ g.StepsIn o n t := by
  induction n generalizing t with
  | zero => rfl
  | succ n ih => exact exists_congr fun m => and_congr ih (alike.steps m t)

theorem mem_distances {d : Nat} : (t, d) ∈ g'.distances o ↔ (t, d) ∈ g.distances o := by
  simp only [mem_distances_iff, alike.stepsIn]

/-- The totals of stacks are the same. -/
theorem total (origins : List NodeId) (s : NodeId) :
    totalDistance? (origins.map g'.distances) s = totalDistance? (origins.map g.distances) s := by
  have same : ∀ total o, addDistance s total (g'.distances o) = addDistance s total (g.distances o) := by
    intro total o
    have found : ((g'.distances o).find? (·.1 = s)).map Prod.snd =
        ((g.distances o).find? (·.1 = s)).map Prod.snd := by
      ext d
      rw [find?_distances_iff, find?_distances_iff, alike.mem_distances]
    rw [addDistance_eq, addDistance_eq, found]
  have fold : ∀ h : Graph, totalDistance? (origins.map h.distances) s =
      origins.foldl (fun total o => addDistance s total (h.distances o)) (some 0) :=
    fun _ => List.foldl_map
  rw [fold, fold, funext₂ same]

/-- Where no loop is entered at two stacks the joins are the same, as far as the stacks have the same
places. -/
theorem joinOf? {origins : List NodeId} (entered : ∀ o ∈ origins, g.LoopsEnteredOnce o)
    (places : ∀ s, g'.nodeIndex? s = g.nodeIndex? s) : g'.joinOf? origins = g.joinOf? origins := by
  refine joinOf?_congr (fun s => ?_) (alike.total origins) places
  cases origins with
  | nil => rfl
  | cons o rest =>
    rw [mem_joinCandidates (List.cons_ne_nil o rest), mem_joinCandidates (List.cons_ne_nil o rest)]
    refine forall₂_congr fun o origin => ?_
    rw [mem_sureReach_of_entered (entered o origin),
      mem_sureReach_of_entered (alike.loopsEnteredOnce (entered o origin))]
    exact ⟨alike.symm.inevitable, alike.inevitable⟩

end FlowsAlike

/-- The search against the one that remembers nothing, and against what it searches for. Without a
memory it finds exactly what lies on every walk, and with it nothing else. Where no loop is entered at
two stacks the memory takes nothing away, and joins are the same in whatever order the choices of the
graph list their outputs. -/
theorem sureReach_recalls (g : Graph) (origins : List NodeId)
    (entered : ∀ o ∈ origins, g.LoopsEnteredOnce o) :
    (∀ o x, x ∈ g.plainReach o ↔ g.Unavoidable x o) ∧
    (∀ o x, x ∈ g.sureReach o → x ∈ g.plainReach o) ∧
    (∀ o ∈ origins, ∀ x, x ∈ g.sureReach o ↔ x ∈ g.plainReach o) ∧
    ∀ order : NodeId → List Port → List Port, (∀ id ports, (order id ports).Perm ports) →
      (∀ n ∈ g.nodes.values, (n.outputs.map (·.name)).Nodup) →
      (g.relist order).joinOf? origins = g.joinOf? origins := by
  refine ⟨fun o x => ?_, fun o x member => ?_, fun o origin x => ?_, fun order reorders named => ?_⟩
  · rw [mem_plainReach, unavoidable_iff_inevitable]
  · exact mem_plainReach.mpr (inevitable_of_mem_sureReach member)
  · rw [mem_plainReach, mem_sureReach_of_entered (entered o origin)]
  · exact (FlowsAlike.of_perm (successors_relist reorders named)).joinOf? entered nodeIndex?_relist

/-- Two stacks that lead to a third, which comes back to itself over another stack until it goes on. -/
def turnstile : Graph :=
  let stackPorts := [PortSpec.execInput "In", .execOutput "Out"]
  { Graph.empty "Turnstile" with
    nodes := ⟨
      [placed 10 .stack none [] stackPorts,
        placed 20 .stack none [] stackPorts,
        placed 30 .stack none [⟨numbered 40⟩] stackPorts,
        placed 40 .branch (some ⟨numbered 30⟩) []
          [.dataInput "Condition" .bool, .execOutput "Then", .execOutput "Else"],
        placed 50 .stack none [] stackPorts,
        placed 60 .stack none [] stackPorts], by decide⟩
    edges := ⟨[wired 71 10 12 30 31, wired 72 20 22 30 31, wired 73 40 42 50 51,
      wired 74 40 43 60 61, wired 75 50 52 30 31], by decide⟩ }

theorem sureReach_recalls_turnstile :
    let branches : List NodeId := [⟨numbered 10⟩, ⟨numbered 20⟩]
    let order : NodeId → List Port → List Port := fun _ => List.reverse
    (∀ o ∈ branches, turnstile.LoopsEnteredOnce o) ∧
      (∀ id ports, (order id ports).Perm ports) ∧
      (∀ n ∈ turnstile.nodes.values, (n.outputs.map (·.name)).Nodup) ∧
      turnstile.joinOf? branches = some ⟨numbered 30⟩ ∧
      (turnstile.relist order).joinOf? branches = some ⟨numbered 30⟩ := by
  intro branches order
  -- the loop consists of the third stack and the one that comes back to it
  have loop : ∀ a ∈ turnstile.nodes.keys, ∀ b ∈ turnstile.nextStacks a,
      (b = ⟨numbered 30⟩ ∨ b = ⟨numbered 50⟩) → ¬ (a = ⟨numbered 30⟩ ∨ a = ⟨numbered 50⟩) →
      b = ⟨numbered 30⟩ := by decide
  have rises : ∀ a ∈ turnstile.nodes.keys, ∀ b ∈ turnstile.nextStacks a,
      a.uuid.bits.toNat < b.uuid.bits.toNat ∨ (a = ⟨numbered 50⟩ ∧ b = ⟨numbered 30⟩) := by decide
  have entered : ∀ o ∈ branches, turnstile.LoopsEnteredOnce o := by
    intro o origin
    have outside : ¬ (o = ⟨numbered 30⟩ ∨ o = ⟨numbered 50⟩) := by
      revert o
      decide
    refine .of_rank (fun s => s.uuid.bits.toNat) fun s t step => ?_
    rcases rises s step.mem_keys t (mem_nextStacks.mpr step) with less | ⟨rfl, rfl⟩
    · exact .inl less
    · exact .inr (not_bypasses_of_entry outside (.inr rfl) fun a b step =>
        loop a step.mem_keys b (mem_nextStacks.mpr step))
  have reorders : ∀ id ports, (order id ports).Perm ports := fun _ ports => ports.reverse_perm
  have named : ∀ n ∈ turnstile.nodes.values, (n.outputs.map (·.name)).Nodup := by decide
  have joined : turnstile.joinOf? branches = some ⟨numbered 30⟩ := by cbv
  have same := (sureReach_recalls turnstile branches entered).2.2.2 order reorders named
  exact ⟨entered, reorders, named, joined, same.trans joined⟩

/-- On the roundabout the search comes to one of the two stacks that lead to each other while it works
on the other, and remembers that from there the other is not reached. Execution comes to both of them
on every way, so it is the earlier one where all meet; the search finds the later one, and it finds
the earlier one if the choices list their outputs the other way round. -/
theorem sureReach_forgets :
    (¬ ∀ (g : Graph) (o x : NodeId), x ∈ g.sureReach o ↔ x ∈ g.plainReach o) ∧
    ¬ ∀ (g : Graph) (origins : List NodeId) (order : NodeId → List Port → List Port),
      (∀ id ports, (order id ports).Perm ports) →
      (∀ n ∈ g.nodes.values, (n.outputs.map (·.name)).Nodup) →
      (g.relist order).joinOf? origins = g.joinOf? origins := by
  constructor
  · intro always
    have plain : (⟨numbered 50⟩ : NodeId) ∈ roundabout.plainReach ⟨numbered 10⟩ := by decide +kernel
    have found : roundabout.sureReach ⟨numbered 10⟩ = [⟨numbered 10⟩, ⟨numbered 60⟩] := by cbv
    have member := (always roundabout ⟨numbered 10⟩ ⟨numbered 50⟩).mpr plain
    rw [found] at member
    revert member
    decide
  · intro always
    let branches : List NodeId := [⟨numbered 10⟩, ⟨numbered 30⟩]
    have same := always roundabout branches (fun _ => List.reverse)
      (fun _ ports => ports.reverse_perm) (by decide)
    have later : roundabout.joinOf? branches = some ⟨numbered 60⟩ := by cbv
    have earlier : (roundabout.relist fun _ => List.reverse).joinOf? branches =
        some ⟨numbered 50⟩ := by cbv
    rw [earlier, later] at same
    revert same
    decide

end Graph

end NodeScript
