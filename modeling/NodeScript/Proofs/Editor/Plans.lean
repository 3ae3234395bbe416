import NodeScript.Proofs.Editor.Picture
import NodeScript.Proofs.Graph.Join

/-!
Plans are exact: what is taken out, which nodes and which edges are drawn anew. And they are
minimal: carrying out a plan leaves everything as it was that is not planned, stands in no stack
that is drawn anew, and is shown in none of this, however deep.
-/

namespace NodeScript

/-- The element that something is done to. -/
def ViewOperation.element : ViewOperation → ElementRef
  | add element => element
  | remove element => element

/-- What a plan does something to: it takes elements out, and draws nodes anew, with what stands in
them, and edges. -/
inductive ReconcilePlan.Handles (p : ReconcilePlan) (g : Graph) : ElementRef → Prop
  | removal {e : ElementRef} (member : e ∈ p.removals.keys) : p.Handles g e
  | node {r : NodeId} (member : r ∈ p.nodes.keys) : p.Handles g (.node r)
  | child {s c : NodeId} (member : s ∈ p.nodes.keys) (inside : c ∈ g.children s) :
    p.Handles g (.node c)
  | edge {id : EdgeId} (member : id ∈ p.edges.keys) : p.Handles g (.edge id)

namespace View

open Relation

variable {g : Graph} {a : NodeArtist} {plan : ReconcilePlan} {v w : View} {e p : ElementRef}

/-- What a plan affects in a view: what it does something to, and all that is shown in this. -/
def Affected (v : View) (plan : ReconcilePlan) (g : Graph) (e : ElementRef) : Prop :=
  ∃ target, plan.Handles g target ∧ ReflTransGen v.Inside e target

theorem affected_of_handles (handles : plan.Handles g e) : v.Affected plan g e :=
  ⟨e, handles, .refl⟩

theorem Affected.inside (inside : v.Inside e p) (affected : v.Affected plan g p) :
    v.Affected plan g e := by
  obtain ⟨target, handles, path⟩ := affected
  exact ⟨target, handles, path.head inside⟩

/-- Where all that is shown in some elements is one of them, taking out what is shown in some of
them leaves everything else. -/
theorem clearBelow_leaves {inner : ElementRef → Prop} {visuals : OrderedMap ElementRef Visual}
    {doomed : List ElementRef}
    (closed : ∀ {e visual p}, visuals.get? e = some visual → visual.parent = some p → inner p →
      inner e) (taken : ∀ gone ∈ doomed, inner gone) :
    (clearBelow visuals doomed).Within visuals ∧
      ∀ keep : ElementRef → Bool, (∀ e, keep e = true → ¬ inner e) →
        (clearBelow visuals doomed).filter (fun e _ => keep e) =
          visuals.filter fun e _ => keep e := by
  have inside : ∀ e, GoesWith visuals doomed e → inner e := by
    rintro e ⟨gone, member, way⟩
    induction way using TransGen.head_induction_on with
    | single shown =>
      obtain ⟨visual, found, inside⟩ := shown
      exact closed found inside (taken gone member)
    | head shown _ further =>
      obtain ⟨visual, found, inside⟩ := shown
      exact closed found inside further
  rw [clearBelow_eq_filter]
  refine ⟨fun found => ?_, fun keep out => ?_⟩
  · rw [OrderedMap.get?_filter, Option.filter_eq_some_iff] at found
    exact found.1
  · rw [OrderedMap.filter_filter]
    refine OrderedMap.ext (List.filter_congr fun x _ => ?_)
    by_cases kept : keep x.1 = true
    · simp [kept, mt (inside x.1) (out x.1 kept)]
    · simp [kept]

/-- A view on the way in which a plan is carried out: what is shown in something affected is
affected, what is not affected is as it was, in its order, and nothing was done but to what the plan
is for. -/
structure Spares (v w : View) (plan : ReconcilePlan) (g : Graph) : Prop where
  closed : ∀ {e p}, w.Inside e p → v.Affected plan g p → v.Affected plan g e
  leaves : ∀ keep : ElementRef → Bool, (∀ e, keep e = true → ¬ v.Affected plan g e) →
    w.visuals.filter (fun e _ => keep e) = v.visuals.filter fun e _ => keep e
  does : ∃ done, w.operations = v.operations ++ done ∧ ∀ op ∈ done, plan.Handles g op.element

namespace Spares

theorem refl : Spares v v plan g where
  closed := Affected.inside
  leaves _ _ := rfl
  does := ⟨[], (List.append_nil _).symm, by simp⟩

theorem does_more (spares : Spares v w plan g) {op : ViewOperation}
    (handles : plan.Handles g op.element) :
    ∃ done, w.operations ++ [op] = v.operations ++ done ∧
      ∀ op ∈ done, plan.Handles g op.element := by
  obtain ⟨done, same, only⟩ := spares.does
  refine ⟨done ++ [op], by rw [same, List.append_assoc], ?_⟩
  simpa [or_imp, forall_and] using ⟨only, handles⟩

theorem remove (spares : Spares v w plan g) (handles : plan.Handles g e) :
    Spares v (w.remove e).2 plan g := by
  unfold View.remove
  split
  · have affected : v.Affected plan g e := affected_of_handles handles
    have less : (w.visuals.erase e).Within w.visuals := by
      intro e' visual found
      rw [OrderedMap.get?_erase] at found
      split at found
      · simp at found
      · exact found
    have closed : ∀ {e' visual p}, (w.visuals.erase e).get? e' = some visual →
        visual.parent = some p → v.Affected plan g p → v.Affected plan g e' :=
      fun found inside => spares.closed ⟨_, less found, inside⟩
    obtain ⟨within, leaves⟩ := clearBelow_leaves closed (List.forall_mem_singleton.mpr affected)
    refine ⟨?_, fun keep apart => ?_, spares.does_more handles⟩
    · rintro e' p ⟨visual, found, inside⟩
      exact spares.closed ⟨visual, less (within found), inside⟩
    · have out : keep e = false := by
        by_contra kept
        exact apart e (by simpa using kept) affected
      refine (leaves keep apart).trans (Eq.trans ?_ (spares.leaves keep apart))
      rw [OrderedMap.erase, OrderedMap.filter_filter]
      refine OrderedMap.ext (List.filter_congr fun x _ => ?_)
      by_cases here : x.1 = e
      · simp [here, out]
      · simp [here]
  · exact spares

theorem add (spares : Spares v w plan g) (handles : plan.Handles g e) (visual : Visual) :
    Spares v (w.add e visual) plan g := by
  have affected : v.Affected plan g e := affected_of_handles handles
  refine ⟨?_, fun keep apart => ?_, spares.does_more handles⟩
  · rintro e' p ⟨visual', found, inside⟩ outer
    rw [get?_add] at found
    split at found
    · rename_i same
      exact same ▸ affected
    · exact spares.closed ⟨visual', found, inside⟩ outer
  · have out : keep e = false := by
      by_contra kept
      exact apart e (by simpa using kept) affected
    exact (OrderedMap.filter_insert_of_not out).trans (spares.leaves keep apart)

theorem foldl {α : Type} {step : View → α → View} {items : List α}
    (each : ∀ w, ∀ x ∈ items, Spares v w plan g → Spares v (step w x) plan g)
    (spares : Spares v w plan g) : Spares v (items.foldl step w) plan g := by
  induction items generalizing w with
  | nil => exact spares
  | cons x rest ih =>
    obtain ⟨first, each⟩ := forall_and.mp fun w => List.forall_mem_cons.mp (each w)
    exact ih each (first w spares)

theorem addNode (spares : Spares v w plan g) {n : Node} (handles : plan.Handles g (.node n.id))
    (parent : Option ElementRef) : Spares v (w.addNode a g n parent) plan g := by
  unfold View.addNode
  split
  · exact spares.add handles _
  · exact spares

theorem redrawNode (spares : Spares v w plan g) (linked : g.Linked) {r : NodeId}
    (member : r ∈ plan.nodes.keys) : Spares v (View.redrawNode a g w r) plan g := by
  unfold View.redrawNode
  split
  · exact spares
  · rename_i n found
    have cleared := spares.remove (.node member)
    split
    · exact cleared
    · have own := cleared.add (e := .node n.id) (linked.nodeFiled found ▸ .node member)
      refine (own _).foldl fun w child drawn spares => spares.addNode ?_ _
      obtain ⟨c, inside, foundC⟩ := List.mem_filterMap.mp drawn
      rw [linked.nodeFiled foundC]
      exact .child member (Graph.children_eq found ▸ inside)

theorem redrawEdge (spares : Spares v w plan g) (linked : g.Linked) {id : EdgeId}
    (member : id ∈ plan.edges.keys) : Spares v (View.redrawEdge g w id) plan g := by
  unfold View.redrawEdge
  split
  · exact spares
  · rename_i edge found
    exact (spares.remove (.edge member)).add (linked.edgeFiled found ▸ .edge member) _

/-- Carrying out a plan spares what the plan does not affect. -/
theorem apply (linked : g.Linked) (a : NodeArtist) (v : View) (plan : ReconcilePlan) :
    Spares v (v.apply a g plan) plan g := by
  have cleared : Spares v (v.removeStale plan) plan g :=
    Spares.refl.foldl fun _ _ member spares => spares.remove (.removal member)
  have drawn : Spares v ((v.removeStale plan).redrawNodes a g plan) plan g :=
    cleared.foldl fun _ _ member spares => spares.redrawNode linked member
  exact drawn.foldl fun _ _ member spares => spares.redrawEdge linked member

theorem get?_eq (spares : Spares v w plan g) (apart : ¬ v.Affected plan g e) :
    w.get? e = v.get? e := by
  have single : ∀ u : View, (u.visuals.filter fun e' _ => e' = e).get? e = u.get? e := by
    intro u
    rw [OrderedMap.get?_filter, View.get?]
    cases u.visuals.get? e <;> simp
  rw [← single w, ← single v, spares.leaves]
  intro e' same
  rwa [of_decide_eq_true same]

end Spares

end View

/-- The plan for changes takes out what is no longer in the graph and shown in nothing of that kind,
draws anew what the changed nodes are drawn with, and the edges that have changed or end at
something that is drawn. Carrying it out leaves what it does not affect as it was, in its order. -/
theorem planChanges_exact {g : Graph} (linked : g.Linked) (a : NodeArtist) (c : ChangeList)
    (v : View) : ∃ p, planChanges g c v = some p ∧
      (∀ e, e ∈ p.removals.keys ↔
        v.Stale g e ∧ ∀ outer, Relation.TransGen v.Inside e outer → ¬ v.Stale g outer) ∧
      (∀ r, r ∈ p.nodes.keys ↔
        ∃ m n, .node m ∈ c.changed.keys ∧ g.node? m = some n ∧ n.parent.getD m = r) ∧
      (∀ id, id ∈ p.edges.keys ↔ ∃ e, g.edge? id = some e ∧ (.edge id ∈ c.changed.keys ∨
        ∃ x, e.involvesNode x = true ∧
          (x ∈ p.nodes.keys ∨ ∃ s ∈ p.nodes.keys, x ∈ g.children s))) ∧
      (∀ e, ¬ v.Affected p g e → (v.apply a g p).get? e = v.get? e) ∧
      (∀ keep : ElementRef → Bool, (∀ e, keep e = true → ¬ v.Affected p g e) →
        (v.apply a g p).visuals.filter (fun e _ => keep e) =
          v.visuals.filter fun e _ => keep e) ∧
      ∃ done, (v.apply a g p).operations = v.operations ++ done ∧
        ∀ op ∈ done, p.Handles g op.element := by
  obtain ⟨p, planned, removals, nodes, edges⟩ := planChanges_members linked c v
  have spares := View.Spares.apply linked a v p
  refine ⟨p, planned, fun e => ?_, fun r => ?_, edges, fun e => spares.get?_eq, spares.leaves,
    spares.does⟩
  · rw [removals]
    exact View.mem_removals
  · rw [nodes]
    have root : ∀ {m n}, g.node? m = some n → g.root m = n.parent.getD m := fun found => by
      rw [Graph.root, Graph.stackOf?_eq found]
    constructor
    · rintro ⟨m, n, changed, found, rfl⟩
      exact ⟨m, n, changed, found, (root found).symm⟩
    · rintro ⟨m, n, changed, found, rfl⟩
      exact ⟨m, n, changed, found, root found⟩

section Cluttered

open NodeScript.Graph

/-- A view of the diamond that still shows a stack that is gone, with a node in it that is gone too,
and in that again a stack of the diamond. -/
def cluttered : View where
  visuals := ⟨[
    (.node ⟨numbered 30⟩, ⟨⟨"stack", "Stack"⟩, some (.node ⟨numbered 91⟩)⟩),
    (.node ⟨numbered 50⟩, ⟨⟨"stack", "Stack"⟩, none⟩),
    (.node ⟨numbered 91⟩, ⟨⟨"statement", "Return"⟩, some (.node ⟨numbered 90⟩)⟩),
    (.node ⟨numbered 90⟩, ⟨⟨"stack", "Stack"⟩, none⟩),
    (.edge ⟨numbered 63⟩, ⟨⟨"edge", "Stack.Out -> Stack.In"⟩, none⟩)], by decide⟩
  operations := []

/-- The condition of the diamond has changed, so its function is drawn anew, with the edges of the
condition. Of what is gone the outer stack alone is taken out. -/
theorem planChanges_exact_cluttered :
    diamond.Linked ∧ ∃ p,
      planChanges diamond (.mark .empty (.node ⟨numbered 20⟩)) cluttered = some p ∧
      p.removals.keys = [.node ⟨numbered 90⟩] ∧ p.nodes.keys = [⟨numbered 10⟩] ∧
      p.edges.keys = [⟨numbered 61⟩, ⟨numbered 62⟩] ∧
      ((.node ⟨numbered 90⟩ : ElementRef) ∈ p.removals.keys ↔
        cluttered.Stale diamond (.node ⟨numbered 90⟩) ∧
          ∀ outer, Relation.TransGen cluttered.Inside (.node ⟨numbered 90⟩) outer →
            ¬ cluttered.Stale diamond outer) ∧
      ∀ e, ¬ cluttered.Affected p diamond e →
        (cluttered.apply .standard diamond p).get? e = cluttered.get? e := by
  have linked : diamond.Linked := .of_entries (by decide) (by decide)
  obtain ⟨p, planned, removals, -, -, looks, -⟩ := planChanges_exact linked .standard
    (.mark .empty (.node ⟨numbered 20⟩)) cluttered
  -- the way outwards does not compute, so it is taken by what is known of links in order
  have root : diamond.outermostStack? ⟨numbered 20⟩ = some ⟨numbered 10⟩ :=
    (linked.outermostStack?_eq _).trans (congrArg some (by decide))
  have marked : ReconcilePlan.addChange diamond .empty (.node ⟨numbered 20⟩) =
      some { ReconcilePlan.empty with nodes := OrderedMap.insert ∅ ⟨numbered 10⟩ () } := by
    have there : (diamond.node? ⟨numbered 20⟩).isSome = true := by decide
    simp only [ReconcilePlan.addChange, there, root, if_true, Option.map_some]
    rfl
  have changed : (ChangeList.mark .empty (.node ⟨numbered 20⟩)).changed.keys =
      [.node ⟨numbered 20⟩] := rfl
  have members : (planChanges diamond (.mark .empty (.node ⟨numbered 20⟩)) cluttered).map
      (fun p => (p.removals.keys, p.nodes.keys, p.edges.keys)) =
        some ([.node ⟨numbered 90⟩], [⟨numbered 10⟩], [⟨numbered 61⟩, ⟨numbered 62⟩]) := by
    rw [planChanges, changed, List.foldlM_cons, marked]
    decide +kernel
  rw [planned] at members
  simp only [Option.map_some, Option.some.injEq, Prod.mk.injEq] at members
  obtain ⟨out, drawn, wires⟩ := members
  exact ⟨linked, p, planned, out, drawn, wires, removals _, looks⟩

end Cluttered

end NodeScript
