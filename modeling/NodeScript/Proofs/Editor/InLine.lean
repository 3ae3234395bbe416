import NodeScript.Proofs.Editor.Redraw

/-!
A view that shows a graph but for what changes have touched is brought in line by them: afterwards it
shows the graph. Showing a graph from scratch is the case of a view that shows nothing, with
everything changed.
-/

namespace NodeScript

namespace View

variable {g : Graph} {a : NodeArtist} {c : ChangeList} {v base : View} {e p : ElementRef}
  {id : EdgeId} {s : NodeId} {done : List EdgeId}

/-- Some edges have been drawn anew, and nothing else has changed. -/
structure EdgesRedrawn (v base : View) (a : NodeArtist) (g : Graph) (done : List EdgeId) : Prop where
  nodes : ∀ id, v.get? (.node id) = base.get? (.node id)
  edges : ∀ id, v.get? (.edge id) =
    if id ∈ done then g.pictured a (.edge id) else base.get? (.edge id)
  order : ∀ s, childrenOf v.visuals (.node s) = childrenOf base.visuals (.node s)

theorem EdgesRedrawn.placed (redrawn : EdgesRedrawn v base a g done) (placed : base.Placed g) :
    v.Placed g := by
  intro e visual found
  cases e with
  | node id => exact placed ((redrawn.nodes id).symm.trans found)
  | edge id =>
    rw [redrawn.edges] at found
    split at found
    · exact Graph.existsIn_of_pictured found
    · exact placed found

theorem EdgesRedrawn.framed (redrawn : EdgesRedrawn v base a g done) (linked : g.Linked)
    (placed : base.Placed g) (framed : base.Framed) : v.Framed := by
  intro e visual p found inside
  have outward := (redrawn.placed placed found).2.symm.trans inside
  obtain ⟨s, rfl, _⟩ := linked.exists_of_parentOf outward
  cases e with
  | edge id => simp [Graph.parentOf] at outward
  | node id =>
    rw [redrawn.nodes] at found ⊢
    exact framed found inside

theorem EdgesRedrawn.step (redrawn : EdgesRedrawn v base a g done) (linked : g.Linked)
    (placed : base.Placed g) (framed : base.Framed) (id : EdgeId) :
    EdgesRedrawn (redrawEdge g v id) base a g (id :: done) := by
  have framed : v.Framed := redrawn.framed linked placed framed
  have placed : v.Placed g := redrawn.placed placed
  unfold redrawEdge
  cases found : g.edge? id with
  | none =>
    have gone : ElementRef.existsIn (.edge id) g = false := by simp [ElementRef.existsIn, found]
    refine ⟨redrawn.nodes, fun id' => ?_, redrawn.order⟩
    by_cases same : id' = id
    · have hidden : v.get? (.edge id) = none := by
        cases shown : v.get? (.edge id) with
        | none => rfl
        | some visual => exact absurd (placed shown).1 (by simp [gone])
      rw [same, hidden, if_pos (List.mem_cons_self ..), Graph.pictured_eq_none gone]
    · rw [redrawn.edges]
      simp [same]
  | some edge =>
    have filed := linked.edgeFiled found
    have cleared : ∀ e, (v.remove (.edge id)).2.get? e = if e = .edge id then none else v.get? e := by
      intro e
      rw [get?_remove framed]
      cases shown : v.get? e with
      | none => simp
      | some visual =>
        have apart : visual.parent ≠ some (.edge id) := by
          intro inside
          obtain ⟨s, absurdity, _⟩ := linked.exists_of_parentOf ((placed shown).2.symm.trans inside)
          simp at absurdity
        by_cases same : e = .edge id <;> simp [staysBeside, same, apart]
    dsimp only
    rw [filed]
    refine ⟨fun id' => ?_, fun id' => ?_, fun s => ?_⟩
    · rw [get?_add, cleared, redrawn.nodes]
      simp
    · rw [get?_add, cleared, redrawn.edges]
      by_cases same : id' = id
      · simp [same, Graph.pictured, found, Graph.parentOf]
      · simp [same]
    · rw [childrenOf_add (by rw [cleared, if_pos rfl]), childrenOf_remove framed (by simp),
        redrawn.order]
      · simp
      · intro visual shown
        rw [(placed shown).2]
        simp [Graph.parentOf]

theorem EdgesRedrawn.all (linked : g.Linked) (placed : base.Placed g) (framed : base.Framed)
    (edges : List EdgeId) (redrawn : EdgesRedrawn v base a g done) :
    EdgesRedrawn (edges.foldl (redrawEdge g) v) base a g (edges.reverse ++ done) := by
  induction edges generalizing v done with
  | nil => exact redrawn
  | cons id rest ih =>
    rw [List.reverse_cons, List.append_assoc]
    exact ih (redrawn.step linked placed framed id)

/-- Nothing is shown in what is no stack. -/
theorem Placed.childrenOf_eq_nil (placed : v.Placed g) (linked : g.Linked)
    (single : ∀ h, g.node? s = some h → h.kind.isStack = false) :
    childrenOf v.visuals (.node s) = [] := by
  refine List.eq_nil_iff_forall_not_mem.mpr fun e inside => ?_
  obtain ⟨visual, shown, within⟩ := mem_childrenOf.mp inside
  obtain ⟨s', same, h, found, stack, _⟩ :=
    linked.exists_of_parentOf ((placed shown).2.symm.trans within)
  obtain rfl := ElementRef.node.inj same
  simp [single h found] at stack

theorem picturedIn_eq_nil (linked : g.Linked)
    (single : ∀ h, g.node? s = some h → h.kind.isStack = false) : g.picturedIn a s = [] := by
  have empty : g.children s = [] := by
    refine List.eq_nil_iff_forall_not_mem.mpr fun c inside => ?_
    obtain ⟨n, foundC, stands⟩ := Graph.exists_of_stackOf? (linked.mem_children_iff.mp inside)
    obtain ⟨h, found, stack, _⟩ := linked.held foundC stands
    simp [single h found] at stack
  simp [Graph.picturedIn, empty]

theorem childrenOf_living (same : base.visuals = v.visuals.filter fun e _ => e.existsIn g)
    (p : ElementRef) :
    childrenOf base.visuals p = (childrenOf v.visuals p).filter fun e => e.existsIn g := by
  rw [same, childrenOf_filter, childrenOf, List.filter_map, List.filter_filter]
  congr 1
  refine List.filter_congr fun x _ => ?_
  simp [Bool.and_comm, Bool.decide_and]

/-- What is left when a view has lost what is gone: everything else, in its place. -/
structure Living (base v : View) (g : Graph) : Prop where
  visuals : base.visuals = v.visuals.filter fun e _ => e.existsIn g
  shown : ∀ e, base.get? e = if e.existsIn g then v.get? e else none
  placed : base.Placed g
  framed : base.Framed

theorem Tracks.living (tracks : v.Tracks a g c) (linked : g.Linked) {plan : ReconcilePlan}
    (removals : plan.removals = v.removals g) : Living (v.removeStale plan) v g := by
  have visuals := removeStale_visuals tracks.framed linked tracks.parents removals
  have shown : ∀ e, (v.removeStale plan).get? e = if e.existsIn g then v.get? e else none := by
    intro e
    rw [get?, visuals, OrderedMap.get?_filter, ← get?]
    cases v.get? e <;> by_cases exists' : e.existsIn g = true <;> simp [exists']
  have placed : (v.removeStale plan).Placed g := by
    intro e visual found
    rw [shown] at found
    split at found
    · rename_i exists'
      exact ⟨exists', tracks.parents found exists'⟩
    · simp at found
  refine ⟨visuals, shown, placed, ?_⟩
  intro e visual p found inside
  obtain ⟨s, rfl, h, foundS, -⟩ := linked.exists_of_parentOf ((placed found).2.symm.trans inside)
  have here : ElementRef.existsIn (.node s) g = true := by simp [ElementRef.existsIn, foundS]
  rw [shown] at found ⊢
  split at found
  · rw [if_pos here]
    exact tracks.framed found inside
  · simp at found

/-- What is shown of an element that nothing has touched, and that has not been drawn anew. -/
theorem Living.look (living : Living base v g) (tracks : v.Tracks a g c)
    (calm : e.existsIn g = true → ¬ g.Touched c e) : base.get? e = g.pictured a e := by
  rw [living.shown]
  by_cases exists' : e.existsIn g = true
  · rw [if_pos exists', tracks.look e exists' (calm exists')]
  · rw [if_neg exists', Graph.pictured_eq_none (by simpa using exists')]

theorem Living.order (living : Living base v g) (tracks : v.Tracks a g c) (linked : g.Linked)
    (calm : ∀ h, g.node? s = some h → h.kind.isStack = true → ¬ g.NodeTouched c s) :
    childrenOf base.visuals (.node s) = g.picturedIn a s := by
  by_cases stack : ∃ h, g.node? s = some h ∧ h.kind.isStack = true
  · obtain ⟨h, found, stack⟩ := stack
    rw [childrenOf_living living.visuals, tracks.order found (calm h found stack)]
    refine List.filter_eq_self.mpr fun e inside => ?_
    obtain ⟨visual, drawn⟩ := Option.isSome_iff_exists.mp (List.mem_filter.mp inside).2
    exact (Graph.existsIn_of_pictured drawn).1
  · have single : ∀ h, g.node? s = some h → h.kind.isStack = false := fun h found => by
      simpa using fun isStack => stack ⟨h, found, isStack⟩
    have placed : base.Placed g := living.placed
    rw [placed.childrenOf_eq_nil linked single, picturedIn_eq_nil linked single]

/-- After it has been brought in line, a view shows the graph. -/
theorem reconcile_spec (linked : g.Linked) (draws : a.DrawsStacks) (tracks : v.Tracks a g c) :
    ∃ plan v', v.reconcile a g c = some (plan, v') ∧ v'.Mirrors a g := by
  obtain ⟨plan, planned, removals, roots, nodes, edges⟩ := planChanges_spec linked c v
  refine ⟨plan, v.apply a g plan, by simp [reconcile, planned], ?_⟩
  let base := v.removeStale plan
  have living : Living base v g := tracks.living linked removals
  have first : Redrawn (base.redrawNodes a g plan) base a g (plan.nodes.keys.reverse ++ []) :=
    Redrawn.all linked draws living.placed living.framed roots ⟨by simp, fun _ => rfl, by simp⟩
  have second : EdgesRedrawn (v.apply a g plan) (base.redrawNodes a g plan) a g
      (plan.edges.keys.reverse ++ []) :=
    EdgesRedrawn.all linked (first.placed living.placed)
      (first.framed linked draws living.placed living.framed) _
      ⟨fun _ => rfl, fun _ => (if_neg List.not_mem_nil).symm, fun _ => rfl⟩
  simp only [List.append_nil] at first second
  constructor
  · intro e
    cases e with
    | node id =>
      rw [second.nodes, first.nodes]
      split
      · rfl
      · rename_i out
        exact living.look tracks fun _ touched => out (List.mem_reverse.mpr (nodes id touched))
    | edge id =>
      rw [second.edges, first.edges]
      split
      · rfl
      · rename_i out
        exact living.look tracks fun exists' touched =>
          out (List.mem_reverse.mpr (edges id touched exists'))
  · intro s
    rw [second.order, first.order]
    split
    · rfl
    · rename_i out
      -- a stack is drawn by itself, so it would be planned if changes had touched it
      refine living.order tracks linked fun h found stack touched => out ?_
      have free := (Graph.stackOf?_eq found).trans (linked.flat found stack)
      exact List.mem_reverse.mpr (Graph.root_of_free free ▸ nodes s touched)

/-- A view that shows a graph shows it but for nothing. -/
theorem Mirrors.tracks (mirrors : v.Mirrors a g) (linked : g.Linked) (draws : a.DrawsStacks) :
    v.Tracks a g .empty where
  framed := by
    intro e visual p found inside
    rw [mirrors.look] at found ⊢
    obtain ⟨s, rfl, h, foundS, stack, alone⟩ :=
      linked.exists_of_parentOf ((Graph.existsIn_of_pictured found).2.symm.trans inside)
    obtain ⟨outer, shown⟩ := pictured_stack draws foundS stack
    exact ⟨outer, shown, (Graph.existsIn_of_pictured shown).2.trans alone⟩
  parents found _ := (Graph.existsIn_of_pictured ((mirrors.look _).symm.trans found)).2
  look e _ _ := mirrors.look e
  order _ _ := mirrors.order _
  noticed _ _ _ found := (Graph.existsIn_of_pictured ((mirrors.look _).symm.trans found)).1

/-- A view that shows a graph but for what nothing has touched shows it. -/
theorem Tracks.mirrors (tracks : v.Tracks a g c) (linked : g.Linked) (idle : c.isEmpty = true) :
    v.Mirrors a g := by
  have nothing : c.changed.keys = [] := by
    simp only [ChangeList.isEmpty, OrderedMap.isEmpty, Bool.and_eq_true, List.isEmpty_iff] at idle
    simp [OrderedMap.keys, idle.1]
  have calm : ∀ id, ¬ g.NodeTouched c id := by
    rintro id ⟨m, n, marked, -⟩
    simp [nothing] at marked
  have placed : v.Placed g := fun shown =>
    ⟨tracks.noticed idle shown, tracks.parents shown (tracks.noticed idle shown)⟩
  constructor
  · intro e
    by_cases exists' : e.existsIn g = true
    · refine tracks.look e exists' ?_
      cases e with
      | node id => exact calm id
      | edge id => simp [Graph.Touched, nothing, calm]
    · rw [Graph.pictured_eq_none (by simpa using exists')]
      cases shown : v.get? e with
      | none => rfl
      | some visual => exact absurd (placed shown).1 exists'
  · intro s
    cases found : g.node? s with
    | some n => exact tracks.order found (calm s)
    | none =>
      have single : ∀ h, g.node? s = some h → h.kind.isStack = false := by simp [found]
      rw [placed.childrenOf_eq_nil linked single, picturedIn_eq_nil linked single]

theorem mem_mark_all {elements : List ElementRef} :
    e ∈ (elements.foldl ChangeList.mark c).changed.keys ↔ e ∈ c.changed.keys ∨ e ∈ elements := by
  induction elements generalizing c with
  | nil => simp
  | cons x rest ih =>
    rw [List.foldl_cons, ih, ChangeList.mark, OrderedMap.mem_keys_insert, List.mem_cons,
      or_comm (a := e = x), or_assoc]

/-- Everything counts as touched when a graph is shown from scratch. -/
theorem touched_everything (linked : g.Linked) (living : e.existsIn g = true) :
    g.Touched (everything g) e := by
  cases e with
  | node id =>
    obtain ⟨n, found⟩ := Option.isSome_iff_exists.mp living
    obtain ⟨h, foundRoot⟩ := linked.isSome_root found
    have free := linked.stackOf?_root id
    refine ⟨g.root id, h, ?_, foundRoot, Graph.root_of_free free⟩
    refine mem_mark_all.mpr (.inr (List.mem_append_left _ (List.mem_map.mpr ⟨h, ?_, ?_⟩)))
    · rw [Graph.stackOf?_eq foundRoot] at free
      exact List.mem_filter.mpr ⟨OrderedMap.mem_values_of_get? foundRoot, by simp [free]⟩
    · rw [linked.nodeFiled foundRoot]
  | edge id =>
    obtain ⟨edge, found⟩ := Option.isSome_iff_exists.mp living
    refine .inl (mem_mark_all.mpr (.inr (List.mem_append_right _ (List.mem_map.mpr ⟨edge, ?_, ?_⟩))))
    · exact OrderedMap.mem_values_of_get? found
    · rw [linked.edgeFiled found]

/-- Showing a graph from scratch shows it. -/
theorem rebuild_spec (linked : g.Linked) (draws : a.DrawsStacks) :
    ∃ plan v, View.empty.rebuild a g = some (plan, v) ∧ v.Mirrors a g := by
  have blank : ∀ e, View.empty.get? e = none := fun _ => rfl
  refine reconcile_spec linked draws ⟨?_, ?_, ?_, ?_, ?_⟩
  · intro e visual p found
    simp [blank] at found
  · intro e visual found
    simp [blank] at found
  · exact fun e living untouched => absurd (touched_everything linked living) untouched
  · intro s n found untouched
    have living : ElementRef.existsIn (.node s) g = true := by simp [ElementRef.existsIn, found]
    exact absurd (touched_everything linked living) untouched
  · intro _ e visual found
    simp [blank] at found

end View

end NodeScript
