import NodeScript.Proofs.Assets.RoundTrip
import NodeScript.Proofs.Editor.Picture
import NodeScript.Proofs.Graph.Join

/-!
Stacks that stand in one another in a ring. Nothing keeps a loaded graph from having them, and they
decide whether planning ends: the way outwards from a node on a ring comes back to the node and ends
there, while the way from a node outside that leads into the ring goes round in it for ever.
-/

namespace NodeScript

open Relation

namespace Graph

variable {g : Graph} {start current stack other out id : NodeId}

/-- A node says of itself that it stands in another one, which may not be there. -/
def NestsIn (g : Graph) (id stack : NodeId) : Prop := g.stackOf? id = some stack

instance : Decidable (g.NestsIn id stack) := inferInstanceAs (Decidable (g.stackOf? id = some stack))

/-- The way outwards that began at a start ends at a node, because the node stands in nothing or in
the start. -/
inductive Outwards (g : Graph) (start : NodeId) : NodeId → NodeId → Prop
  | free {current : NodeId} (free : g.stackOf? current = none) : g.Outwards start current current
  | back {current : NodeId} (nests : g.NestsIn current start) : g.Outwards start current current
  | next {current stack out : NodeId} (nests : g.NestsIn current stack) (away : stack ≠ start)
    (rest : g.Outwards start stack out) : g.Outwards start current out

/-- The stacks around a node go round in a ring that the node is not on. -/
structure LeadsIntoRing (g : Graph) (id : NodeId) : Prop where
  ring : ∃ s, TransGen g.NestsIn id s ∧ TransGen g.NestsIn s s
  outside : ¬ TransGen g.NestsIn id id

theorem NestsIn.unique (nests : g.NestsIn id stack) (nests' : g.NestsIn id other) :
    stack = other :=
  Option.some.inj (nests.symm.trans nests')

theorem Outwards.of_outermostFrom (found : g.outermostFrom start current = some out) :
    g.Outwards start current out := by
  refine outermostFrom.partial_correctness g start (fun current out => g.Outwards start current out)
    ?_ current out found
  intro search sound current out step
  split at step
  · rename_i free
    cases step
    exact .free free
  · rename_i stack nests
    split at step
    · rename_i back
      cases step
      exact .back (back ▸ nests)
    · rename_i away
      exact .next nests away (sound stack out step)

theorem Outwards.outermostFrom (way : g.Outwards start current out) :
    g.outermostFrom start current = some out := by
  induction way with
  | free free => rw [Graph.outermostFrom, free]
  | back nests =>
    rw [Graph.outermostFrom, nests]
    simp only [if_true]
  | next nests away rest ih =>
    rw [Graph.outermostFrom, nests]
    simp only [away, if_false]
    exact ih

theorem outermostFrom_eq_some_iff :
    g.outermostFrom start current = some out ↔ g.Outwards start current out :=
  ⟨.of_outermostFrom, Outwards.outermostFrom⟩

/-- A way that ends passes no ring, unless the start itself is on one. -/
theorem Outwards.passes_no_ring (way : g.Outwards start current out)
    (from_start : ReflTransGen g.NestsIn start current) (outside : ¬ TransGen g.NestsIn start start)
    {s : NodeId} (passed : ReflTransGen g.NestsIn current s) : ¬ TransGen g.NestsIn s s := by
  intro ring
  induction way with
  | free free =>
    rcases passed.cases_head with rfl | ⟨stack, nests, -⟩
    · obtain ⟨stack, nests, -⟩ := TransGen.head'_iff.mp ring
      exact nomatch free.symm.trans nests
    · exact nomatch free.symm.trans nests
  | back nests => exact outside (.tail' from_start nests)
  | next nests away rest ih =>
    refine ih (from_start.tail nests) ?_
    rcases passed.cases_head with rfl | ⟨stack, nests', further⟩
    · -- a ring that begins here goes on with the next stack
      obtain ⟨stack, nests', further⟩ := TransGen.head'_iff.mp ring
      rwa [nests.unique nests']
    · rwa [nests.unique nests']

/-- The way ends where it comes back to the start. -/
theorem exists_outwards_of_back (back : TransGen g.NestsIn current start) :
    ∃ out, g.Outwards start current out := by
  induction back using TransGen.head_induction_on with
  | single nests => exact ⟨_, .back nests⟩
  | head nests rest ih =>
    rename_i current stack
    by_cases same : stack = start
    · exact ⟨current, .back (same ▸ nests)⟩
    · obtain ⟨out, way⟩ := ih
      exact ⟨out, .next nests same way⟩

theorem mem_keys_of_nestsIn (nests : g.NestsIn id stack) : id ∈ g.nodes.keys := by
  obtain ⟨n, found, -⟩ := exists_of_stackOf? nests
  exact OrderedMap.mem_keys_of_get? found

/-- The way ends where there is no ring: with every stack it passes one more node of the graph. -/
theorem exists_outwards_of_ringless {passed : List NodeId} (once : passed.Nodup)
    (inner : ∀ s ∈ passed, TransGen g.NestsIn s current)
    (ringless : ∀ s, ReflTransGen g.NestsIn current s → ¬ TransGen g.NestsIn s s) (room : Nat)
    (enough : g.nodes.keys.length < passed.length + room) :
    ∃ out, g.Outwards start current out := by
  induction room generalizing current passed with
  | zero =>
    have known : ∀ s ∈ passed, s ∈ g.nodes.keys := fun s member => by
      obtain ⟨stack, nests, -⟩ := TransGen.head'_iff.mp (inner s member)
      exact mem_keys_of_nestsIn nests
    have few : passed.length ≤ g.nodes.keys.length := (once.subperm known).length_le
    omega
  | succ room ih =>
    cases nests : g.stackOf? current with
    | none => exact ⟨current, .free nests⟩
    | some stack =>
      by_cases back : stack = start
      · exact ⟨current, .back (back ▸ nests)⟩
      have new : current ∉ passed := fun member => ringless current .refl (inner current member)
      have further : ∀ s ∈ current :: passed, TransGen g.NestsIn s stack := by
        intro s member
        rcases List.mem_cons.mp member with rfl | before
        · exact .single nests
        · exact (inner s before).tail nests
      obtain ⟨out, way⟩ := ih (List.nodup_cons.mpr ⟨new, once⟩) further
        (fun s path => ringless s (path.head nests)) (by simp only [List.length_cons]; omega)
      exact ⟨out, .next nests back way⟩

/-- The search for the outermost stack of a node has no end exactly if the stacks around the node lead
into a ring that it is not on. -/
theorem outermostStack?_eq_none_iff : g.outermostStack? id = none ↔ g.LeadsIntoRing id := by
  have ends : g.outermostStack? id = none ↔ ¬ ∃ out, g.Outwards id id out := by
    rw [Option.eq_none_iff_forall_ne_some, not_exists]
    exact forall_congr' fun out => not_congr outermostFrom_eq_some_iff
  rw [ends]
  constructor
  · intro endless
    refine ⟨?_, fun back => endless (exists_outwards_of_back back)⟩
    by_contra none
    have ringless : ∀ s, ReflTransGen g.NestsIn id s → ¬ TransGen g.NestsIn s s := by
      intro s path ring
      rcases Relation.reflTransGen_iff_eq_or_transGen.mp path with rfl | path
      · exact none ⟨s, ring, ring⟩
      · exact none ⟨s, path, ring⟩
    exact endless (exists_outwards_of_ringless .nil (fun _ member => nomatch member) ringless
      (g.nodes.keys.length + 1) (by simp))
  · rintro ⟨⟨s, path, ring⟩, outside⟩ ⟨out, way⟩
    exact way.passes_no_ring .refl outside path.to_reflTransGen ring

end Graph

variable {g : Graph} {element : ElementRef}

namespace ReconcilePlan

/-- A change of a node of the graph from which the way outwards has no end. -/
def Endless (g : Graph) (element : ElementRef) : Prop :=
  ∃ id n, element = .node id ∧ g.node? id = some n ∧ g.LeadsIntoRing id

theorem addChange_eq_none_iff {p : ReconcilePlan} :
    addChange g p element = none ↔ Endless g element := by
  cases element with
  | node id =>
    cases found : g.node? id with
    | none => simp [addChange, Endless, found]
    | some n => simp [addChange, Endless, found, Graph.outermostStack?_eq_none_iff]
  | edge id =>
    simp only [addChange, Endless]
    split <;> simp

theorem foldlM_addChange_eq_none_iff {changed : List ElementRef} {p : ReconcilePlan} :
    changed.foldlM (addChange g) p = none ↔ ∃ element ∈ changed, Endless g element := by
  induction changed generalizing p with
  | nil => simp
  | cons element rest ih =>
    rw [List.foldlM_cons, List.exists_mem_cons_iff, ← addChange_eq_none_iff (p := p)]
    cases addChange g p element with
    | none => simp
    | some next => simp [ih]

end ReconcilePlan

theorem planChanges_eq_none_iff {c : ChangeList} {v : View} :
    planChanges g c v = none ↔ ∃ element ∈ c.changed.keys, ReconcilePlan.Endless g element := by
  rw [← ReconcilePlan.foldlM_addChange_eq_none_iff, planChanges]
  cases c.changed.keys.foldlM (ReconcilePlan.addChange g) .empty <;> simp

/-- Planning comes to an end unless a changed node of the graph leads into a ring of stacks that the
node itself is not on, and so does the search for the outermost stack of a node. It ends for every
other shape of links: rings that a node is on, stacks that are not there, and stacks that do not know
what says to stand in them. -/
theorem planning_ends_iff (g : Graph) (c : ChangeList) (v : View) :
    ((planChanges g c v).isSome = true ↔ ∀ id n, .node id ∈ c.changed.keys →
      g.node? id = some n → ¬ g.LeadsIntoRing id) ∧
    ∀ id, (g.outermostStack? id).isSome = true ↔ ¬ g.LeadsIntoRing id := by
  constructor
  · rw [← Option.ne_none_iff_isSome, ne_eq, planChanges_eq_none_iff]
    constructor
    · exact fun ends id n changed found endless => ends ⟨_, changed, id, n, rfl, found, endless⟩
    · rintro ends ⟨_, changed, id, n, rfl, found, endless⟩
      exact ends id n changed found endless
  · intro id
    rw [← Option.ne_none_iff_isSome, ne_eq, Graph.outermostStack?_eq_none_iff]

namespace Graph

/-- Two stacks that stand in each other, and a third one that stands in one of them. -/
def ringed : Graph := { Graph.empty "Ringed" with
  nodes := ⟨[
    placed 10 .stack (some ⟨numbered 20⟩) [] [],
    placed 20 .stack (some ⟨numbered 30⟩) [] [],
    placed 30 .stack (some ⟨numbered 20⟩) [] []], by decide⟩ }

theorem ringed_leadsIntoRing : ringed.LeadsIntoRing ⟨numbered 10⟩ := by
  have inwards : ringed.NestsIn ⟨numbered 10⟩ ⟨numbered 20⟩ := by decide
  have across : ringed.NestsIn ⟨numbered 20⟩ ⟨numbered 30⟩ := by decide
  have back : ringed.NestsIn ⟨numbered 30⟩ ⟨numbered 20⟩ := by decide
  refine ⟨⟨⟨numbered 20⟩, .single inwards, .tail (.single across) back⟩, fun ring => ?_⟩
  -- nothing says that it stands in the first stack
  have apart : ∀ e ∈ ringed.nodes.entries, e.2.parent ≠ some ⟨numbered 10⟩ := by decide
  obtain ⟨stack, -, nests⟩ := TransGen.tail'_iff.mp ring
  obtain ⟨n, found, stands⟩ := exists_of_stackOf? nests
  exact apart _ (OrderedMap.get?_eq_some_iff.mp found) stands

end Graph

/-- A document is read as a graph, and planning for a change of one of its nodes never ends. -/
theorem planChanges_ringed :
    GraphAsset.ofDocument (GraphAsset.ofGraph Graph.ringed).toDocument =
        .ok (.ofGraph Graph.ringed) ∧
      planChanges Graph.ringed (.mark .empty (.node ⟨Graph.numbered 10⟩)) .empty = none := by
  obtain ⟨n, found⟩ : ∃ n, Graph.ringed.node? ⟨Graph.numbered 10⟩ = some n := ⟨_, rfl⟩
  have endless : ReconcilePlan.Endless Graph.ringed (.node ⟨Graph.numbered 10⟩) :=
    ⟨_, n, rfl, found, Graph.ringed_leadsIntoRing⟩
  exact ⟨GraphAsset.ofDocument_toDocument Graph.ringed,
    planChanges_eq_none_iff.mpr ⟨_, .head _, endless⟩⟩

end NodeScript
