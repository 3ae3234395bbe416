import NodeScript.Proofs.Editor.Picture

/-!
Bringing a view in line, phase by phase: what is gone is taken out, and then every planned element is
drawn as it is to be shown, while everything else stays as it was.
-/

namespace NodeScript

/-- Stacks can be drawn, whatever the graph. -/
def NodeArtist.DrawsStacks (a : NodeArtist) : Prop :=
  ∀ g n, n.kind.isStack = true → (a.drawNode? g n).isSome = true

namespace View

variable {g : Graph} {a : NodeArtist} {c : ChangeList} {v base : View} {e p : ElementRef}
  {id r s : NodeId} {done : List NodeId}

/-- A view shows nothing but elements of a graph, each in what it is to be shown in. -/
def Placed (v : View) (g : Graph) : Prop :=
  ∀ {e visual}, v.get? e = some visual → e.existsIn g = true ∧ visual.parent = g.parentOf e

/-- A view shows a graph: every element as it is to be shown, and what stands in stacks in order. -/
structure Mirrors (v : View) (a : NodeArtist) (g : Graph) : Prop where
  look : ∀ e, v.get? e = g.pictured a e
  order : ∀ s, childrenOf v.visuals (.node s) = g.picturedIn a s

/-- A view shows a graph but for what changes have touched, and for what is gone. -/
structure Tracks (v : View) (a : NodeArtist) (g : Graph) (c : ChangeList) : Prop where
  framed : v.Framed
  parents : ∀ {e visual}, v.get? e = some visual → e.existsIn g = true →
    visual.parent = g.parentOf e
  look : ∀ e, e.existsIn g = true → ¬ g.Touched c e → v.get? e = g.pictured a e
  order : ∀ {s n}, g.node? s = some n → ¬ g.NodeTouched c s →
    childrenOf v.visuals (.node s) = g.picturedIn a s
  noticed : c.isEmpty = true → ∀ {e visual}, v.get? e = some visual → e.existsIn g = true

section Stale

/-- Nothing is shown deeper than one step within anything. -/
theorem Framed.inside_of_path (framed : v.Framed) (path : Relation.TransGen v.Inside e p) :
    v.Inside e p := by
  induction path with
  | single inside => exact inside
  | tail _ outward ih =>
    obtain ⟨visual, found, inside⟩ := ih
    obtain ⟨outer, foundOuter, alone⟩ := framed found inside
    obtain ⟨outer', foundOuter', deeper⟩ := outward
    obtain rfl := Option.some.inj (foundOuter.symm.trans foundOuter')
    simp [alone] at deeper

theorem Framed.mem_removals_iff (framed : v.Framed) : e ∈ (v.removals g).keys ↔
    ∃ visual, v.get? e = some visual ∧ e.existsIn g = false ∧
      ∀ p, visual.parent = some p → p.existsIn g = true := by
  rw [mem_removals]
  constructor
  · rintro ⟨⟨⟨visual, found⟩, gone⟩, apart⟩
    refine ⟨visual, found, gone, fun p inside => ?_⟩
    by_contra lost
    obtain ⟨outer, foundOuter, _⟩ := framed found inside
    exact apart p (.single ⟨visual, found, inside⟩) ⟨⟨outer, foundOuter⟩, by simpa using lost⟩
  · rintro ⟨visual, found, gone, safe⟩
    refine ⟨⟨⟨visual, found⟩, gone⟩, fun p path stale => ?_⟩
    obtain ⟨visual', found', inside⟩ := framed.inside_of_path path
    obtain rfl := Option.some.inj (found.symm.trans found')
    have lost := stale.2
    rw [safe p inside] at lost
    simp at lost

theorem foldl_remove (framed : v.Framed) (gone : List ElementRef) :
    (gone.foldl (fun v e => (v.remove e).2) v).visuals =
      v.visuals.filter fun e visual => gone.all fun out => staysBeside out e visual := by
  induction gone generalizing v with
  | nil => exact OrderedMap.ext (List.filter_eq_self.mpr fun _ _ => rfl).symm
  | cons out rest ih =>
    rw [List.foldl_cons, ih (framed.remove out), remove_visuals framed]
    refine OrderedMap.ext ?_
    simp only [OrderedMap.filter, List.filter_filter]
    refine List.filter_congr fun x _ => ?_
    rw [List.all_cons, Bool.and_comm]

/-- Taking out what is gone leaves exactly what is in the graph. -/
theorem removeStale_visuals (framed : v.Framed) (linked : g.Linked)
    (parents : ∀ {e visual}, v.get? e = some visual → e.existsIn g = true →
      visual.parent = g.parentOf e) {plan : ReconcilePlan} (removals : plan.removals = v.removals g) :
    (v.removeStale plan).visuals = v.visuals.filter fun e _ => e.existsIn g := by
  rw [removeStale, removals, foldl_remove framed]
  refine OrderedMap.ext (List.filter_congr fun x member => ?_)
  have found := get?_of_mem member
  rw [Bool.eq_iff_iff, List.all_eq_true]
  constructor
  · intro stays
    by_contra lost
    have gone : x.1.existsIn g = false := by simpa using lost
    by_cases safe : ∀ p, x.2.parent = some p → p.existsIn g = true
    · have out := stays x.1 (framed.mem_removals_iff.mpr ⟨x.2, found, gone, safe⟩)
      simp [staysBeside] at out
    · obtain ⟨p, exposed⟩ := not_forall.mp safe
      obtain ⟨inside, lostP⟩ := Classical.not_imp.mp exposed
      obtain ⟨outer, foundOuter, alone⟩ := framed found inside
      have out := stays p (framed.mem_removals_iff.mpr
        ⟨outer, foundOuter, by simpa using lostP, fun q deeper => by simp [alone] at deeper⟩)
      simp [staysBeside, inside] at out
  · intro living out removed
    obtain ⟨_, _, gone, _⟩ := framed.mem_removals_iff.mp removed
    have away : x.1 ≠ out := by
      rintro rfl
      simp [living] at gone
    have apart : x.2.parent ≠ some out := by
      intro inside
      rw [parents found living] at inside
      obtain ⟨s, rfl, h, foundS, -⟩ := linked.exists_of_parentOf inside
      simp [ElementRef.existsIn, foundS] at gone
    simp [staysBeside, away, apart]

end Stale

section Nodes

/-- Showing a node that was not shown, in the stack that it stands in. -/
theorem addNode_spec (linked : g.Linked) {n : Node} (found : g.node? id = some n)
    (stands : g.stackOf? id = some r) (hidden : v.get? (.node id) = none) :
    (∀ e, (v.addNode a g n (some (.node r))).get? e =
      if e = .node id then g.pictured a e else v.get? e) ∧
    (∀ p, childrenOf (v.addNode a g n (some (.node r))).visuals p = childrenOf v.visuals p ++
      if p = .node r then [ElementRef.node id].filter fun e => (g.pictured a e).isSome else []) := by
  have filed := linked.nodeFiled found
  have drawn : g.pictured a (.node id) =
      (a.drawNode? g n).map fun look => ⟨look, some (.node r)⟩ := by
    simp [Graph.pictured, found, Graph.parentOf, stands]
  unfold addNode
  cases look : a.drawNode? g n with
  | none =>
    rw [look, Option.map_none] at drawn
    refine ⟨fun e => ?_, fun p => ?_⟩
    · by_cases same : e = .node id
      · simp [same, hidden, drawn]
      · simp [same]
    · simp [drawn]
  | some look' =>
    rw [look, Option.map_some] at drawn
    refine ⟨fun e => ?_, fun p => ?_⟩
    · rw [filed, get?_add]
      by_cases same : e = .node id
      · simp [same, drawn]
      · simp [same]
    · rw [filed, childrenOf_add hidden]
      simp [drawn, eq_comm]

theorem addChildren_spec (linked : g.Linked) {children : List NodeId}
    (stand : ∀ c ∈ children, g.stackOf? c = some r) (nodup : children.Nodup)
    (hidden : ∀ c ∈ children, v.get? (.node c) = none) :
    (∀ e, ((children.filterMap g.node?).foldl
      (fun v child => v.addNode a g child (some (.node r))) v).get? e =
        if e ∈ children.map ElementRef.node then g.pictured a e else v.get? e) ∧
    (∀ p, childrenOf ((children.filterMap g.node?).foldl
      (fun v child => v.addNode a g child (some (.node r))) v).visuals p =
        childrenOf v.visuals p ++ if p = .node r then
          (children.map ElementRef.node).filter fun e => (g.pictured a e).isSome else []) := by
  induction children generalizing v with
  | nil => simp
  | cons c rest ih =>
    obtain ⟨stands, stand⟩ := List.forall_mem_cons.mp stand
    obtain ⟨new, nodup⟩ := List.nodup_cons.mp nodup
    obtain ⟨hiddenC, hidden⟩ := List.forall_mem_cons.mp hidden
    obtain ⟨n, found, _⟩ := Graph.exists_of_stackOf? stands
    obtain ⟨look, order⟩ := addNode_spec (a := a) linked found stands hiddenC
    have hidden' : ∀ c' ∈ rest, (v.addNode a g n (some (.node r))).get? (.node c') = none := by
      intro c' member
      have other : c' ≠ c := by
        rintro rfl
        exact new member
      rw [look, if_neg fun same => other (ElementRef.node.inj same)]
      exact hidden c' member
    obtain ⟨lookRest, orderRest⟩ := ih stand nodup hidden'
    rw [List.filterMap_cons_some found, List.foldl_cons]
    refine ⟨fun e => ?_, fun p => ?_⟩
    · rw [lookRest, look]
      by_cases first : e = .node c
      · simp [first]
      · simp [first]
    · rw [orderRest, order, List.append_assoc]
      congr 1
      by_cases here : p = .node r
      · simp only [here, if_true, List.map_cons]
        rw [← List.filter_append, List.singleton_append]
      · simp [here]

/-- Some nodes have been drawn anew with what stands in them, and nothing else has changed. -/
structure Redrawn (v base : View) (a : NodeArtist) (g : Graph) (done : List NodeId) : Prop where
  nodes : ∀ id, v.get? (.node id) =
    if g.root id ∈ done then g.pictured a (.node id) else base.get? (.node id)
  edges : ∀ id, v.get? (.edge id) = base.get? (.edge id)
  order : ∀ s, childrenOf v.visuals (.node s) =
    if s ∈ done then g.picturedIn a s else childrenOf base.visuals (.node s)

theorem Redrawn.placed (redrawn : Redrawn v base a g done) (placed : base.Placed g) :
    v.Placed g := by
  intro e visual found
  cases e with
  | node id =>
    rw [redrawn.nodes] at found
    split at found
    · exact Graph.existsIn_of_pictured found
    · exact placed found
  | edge id => exact placed ((redrawn.edges id).symm.trans found)

theorem pictured_stack (draws : a.DrawsStacks) {h : Node} (found : g.node? s = some h)
    (stack : h.kind.isStack = true) : ∃ visual, g.pictured a (.node s) = some visual := by
  obtain ⟨look, drawn⟩ := Option.isSome_iff_exists.mp (draws g h stack)
  exact ⟨_, by simp [Graph.pictured, found, drawn]; rfl⟩

theorem Redrawn.framed (redrawn : Redrawn v base a g done) (linked : g.Linked)
    (draws : a.DrawsStacks) (placed : base.Placed g) (framed : base.Framed) : v.Framed := by
  intro e visual p found inside
  have outward := (redrawn.placed placed found).2.symm.trans inside
  obtain ⟨s, rfl, h, foundS, stack, alone⟩ := linked.exists_of_parentOf outward
  cases e with
  | edge id => simp [Graph.parentOf] at outward
  | node id =>
    have stands : g.stackOf? id = some s := by simpa [Graph.parentOf] using outward
    have free := linked.stackOf?_stack stands
    rw [redrawn.nodes, Graph.root_of_stackOf? stands] at found
    rw [redrawn.nodes, Graph.root_of_free free]
    split at found
    · rename_i drawn
      obtain ⟨outer, shown⟩ := pictured_stack draws foundS stack
      exact ⟨outer, by rw [if_pos drawn, shown], (Graph.existsIn_of_pictured shown).2.trans alone⟩
    · rename_i left
      rw [if_neg left]
      exact framed found inside

/-- What is left when a node that stands in no stack is taken out: it and what stands in it is gone.
-/
theorem cleared_spec (framed : v.Framed) (placed : v.Placed g) (free : g.stackOf? r = none) :
    (∀ id, (v.remove (.node r)).2.get? (.node id) =
      if g.root id = r then none else v.get? (.node id)) ∧
    (∀ id, (v.remove (.node r)).2.get? (.edge id) = v.get? (.edge id)) ∧
    (∀ s, childrenOf (v.remove (.node r)).2.visuals (.node s) =
      if s = r then [] else childrenOf v.visuals (.node s)) := by
  refine ⟨fun id => ?_, fun id => ?_, fun s => ?_⟩
  · rw [get?_remove framed]
    cases found : v.get? (.node id) with
    | none => simp
    | some visual =>
      have parent := (placed found).2
      have stays : staysBeside (.node r) (.node id) visual = !decide (g.root id = r) := by
        rw [Bool.eq_iff_iff]
        simp [staysBeside, parent, Graph.parentOf, Graph.root_eq_iff free]
      by_cases gone : g.root id = r <;> simp [stays, gone]
  · rw [get?_remove framed]
    cases found : v.get? (.edge id) with
    | none => simp
    | some visual =>
      have parent := (placed found).2
      simp [staysBeside, parent, Graph.parentOf]
  · by_cases here : s = r
    · rw [if_pos here, here, childrenOf_remove_self framed]
    · rw [if_neg here, childrenOf_remove framed fun same => here (ElementRef.node.inj same)]
      intro visual found
      rw [(placed found).2, Graph.parentOf, free]
      simp

/-- What cannot be drawn is no stack, so nothing stands in it. -/
theorem not_stands_of_blank (linked : g.Linked) (draws : a.DrawsStacks) {n : Node}
    (found : g.node? r = some n) (blank : a.drawNode? g n = none) (c : NodeId) :
    g.stackOf? c ≠ some r := by
  intro stands
  obtain ⟨m, foundC, stands'⟩ := Graph.exists_of_stackOf? stands
  obtain ⟨h, foundR, stack, _⟩ := linked.held foundC stands'
  obtain rfl := Option.some.inj (found.symm.trans foundR)
  have drawn := draws g n stack
  simp [blank] at drawn

/-- Drawing a node anew that stands in no stack: it is shown as it is to be, with what stands in it
in order. -/
theorem redrawNode_spec (linked : g.Linked) (draws : a.DrawsStacks) (placed : v.Placed g)
    (framed : v.Framed) {n : Node} (found : g.node? r = some n) (free : g.stackOf? r = none) :
    (∀ id, (redrawNode a g v r).get? (.node id) =
      if g.root id = r then g.pictured a (.node id) else v.get? (.node id)) ∧
    (∀ id, (redrawNode a g v r).get? (.edge id) = v.get? (.edge id)) ∧
    (∀ s, childrenOf (redrawNode a g v r).visuals (.node s) =
      if s = r then g.picturedIn a s else childrenOf v.visuals (.node s)) := by
  obtain ⟨nodes, edges, order⟩ := cleared_spec framed placed free
  have child : ∀ c, c ∈ n.children ↔ g.stackOf? c = some r := fun c => by
    rw [← Graph.children_eq found, linked.mem_children_iff]
  simp only [redrawNode, found]
  cases drawn : a.drawNode? g n with
  | none =>
    have blank : g.pictured a (.node r) = none := by simp [Graph.pictured, found, drawn]
    have single := not_stands_of_blank linked draws found drawn
    refine ⟨fun id => ?_, edges, fun s => ?_⟩
    · rw [nodes]
      by_cases here : g.root id = r
      · rcases (Graph.root_eq_iff free).mp here with rfl | stands
        · rw [if_pos here, if_pos here, blank]
        · exact absurd stands (single id)
      · rw [if_neg here, if_neg here]
    · rw [order]
      by_cases here : s = r
      · have empty : n.children = [] :=
          List.eq_nil_iff_forall_not_mem.mpr fun c inside => single c ((child c).mp inside)
        simp [here, Graph.picturedIn, Graph.children_eq found, empty]
      · simp [here]
  | some look =>
    have filed := linked.nodeFiled found
    have alone : n.parent = none := by rw [← Graph.stackOf?_eq found, free]
    have shown : g.pictured a (.node r) = some ⟨look, none⟩ := by
      simp [Graph.pictured, found, drawn, Graph.parentOf, free]
    simp only [filed, alone, Option.map_none]
    have hiddenR : (v.remove (.node r)).2.get? (.node r) = none := by
      rw [nodes, Graph.root_of_free free, if_pos rfl]
    have hidden : ∀ c ∈ n.children,
        ((v.remove (.node r)).2.add (.node r) ⟨look, none⟩).get? (.node c) = none := by
      intro c inside
      have stands := (child c).mp inside
      have other : c ≠ r := by
        rintro rfl
        rw [free] at stands
        simp at stands
      rw [get?_add, if_neg fun same => other (ElementRef.node.inj same), nodes,
        Graph.root_of_stackOf? stands, if_pos rfl]
    obtain ⟨lookAll, orderAll⟩ := addChildren_spec (a := a) linked (fun c => (child c).mp)
      (linked.once found) hidden
    refine ⟨fun id => ?_, fun id => ?_, fun s => ?_⟩
    · rw [lookAll, get?_add, nodes]
      by_cases inside : id ∈ n.children
      · have stands := (child id).mp inside
        simp [inside, Graph.root_of_stackOf? stands]
      · by_cases here : id = r
        · simp [here, Graph.root_of_free free, shown]
        · have other : g.root id ≠ r := by
            rw [ne_eq, Graph.root_eq_iff free, not_or]
            exact ⟨here, fun stands => inside ((child id).mpr stands)⟩
          simp [inside, here, other]
    · rw [lookAll, get?_add, edges]
      simp
    · rw [orderAll, childrenOf_add hiddenR, order]
      by_cases here : s = r
      · simp [here, Graph.picturedIn, Graph.children_eq found]
      · simp [here]

theorem Redrawn.step (redrawn : Redrawn v base a g done) (linked : g.Linked)
    (draws : a.DrawsStacks) (placed : base.Placed g) (framed : base.Framed) {n : Node}
    (found : g.node? r = some n) (free : g.stackOf? r = none) :
    Redrawn (redrawNode a g v r) base a g (r :: done) := by
  obtain ⟨nodes, edges, order⟩ := redrawNode_spec linked draws (redrawn.placed placed)
    (redrawn.framed linked draws placed framed) found free
  refine ⟨fun id => ?_, fun id => (edges id).trans (redrawn.edges id), fun s => ?_⟩
  · rw [nodes, redrawn.nodes]
    by_cases here : g.root id = r <;> simp [here]
  · rw [order, redrawn.order]
    by_cases here : s = r <;> simp [here]

theorem Redrawn.all (linked : g.Linked) (draws : a.DrawsStacks) (placed : base.Placed g)
    (framed : base.Framed) {roots : List NodeId}
    (free : ∀ r ∈ roots, ∃ n, g.node? r = some n ∧ g.stackOf? r = none)
    (redrawn : Redrawn v base a g done) :
    Redrawn (roots.foldl (redrawNode a g) v) base a g (roots.reverse ++ done) := by
  induction roots generalizing v done with
  | nil => exact redrawn
  | cons r rest ih =>
    obtain ⟨⟨n, found, freeR⟩, free⟩ := List.forall_mem_cons.mp free
    rw [List.reverse_cons, List.append_assoc]
    exact ih free (redrawn.step linked draws placed framed found freeR)

end Nodes

end View

end NodeScript
