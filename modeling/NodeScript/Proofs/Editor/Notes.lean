import NodeScript.Editor.Action
import NodeScript.Proofs.Editor.InLine
import NodeScript.Proofs.Graph.Edits
import NodeScript.Proofs.Graph.Removal

/-!
What the notes of an edit have to say for a view to be brought in line by them: whatever they leave
untouched was there before, was untouched before, and looks as it did. Edits that do so one after the
other do so together.
-/

namespace NodeScript

/-- The identity of an element. -/
def ElementRef.uuid : ElementRef → Uuid
  | .node id => id.uuid
  | .edge id => id.uuid

namespace ChangeList

variable {c c' : ChangeList} {e : ElementRef} {id : EdgeId}

/-- What one list notes another one notes too. -/
structure Within (c c' : ChangeList) : Prop where
  changed : ∀ e ∈ c.changed.keys, e ∈ c'.changed.keys
  deleted : ∀ id ∈ c.deletedEdges.keys, id ∈ c'.deletedEdges.keys

theorem Within.refl (c : ChangeList) : c.Within c := ⟨fun _ member => member, fun _ member => member⟩

theorem Within.trans {c'' : ChangeList} (first : c.Within c') (second : c'.Within c'') :
    c.Within c'' :=
  ⟨fun e member => second.changed e (first.changed e member),
    fun id member => second.deleted id (first.deleted id member)⟩

theorem isEmpty_iff : c.isEmpty = true ↔ c.changed.keys = [] ∧ c.deletedEdges.keys = [] := by
  simp [isEmpty, OrderedMap.isEmpty, OrderedMap.keys]

theorem Within.isEmpty (within : c.Within c') (empty : c'.isEmpty = true) : c.isEmpty = true := by
  obtain ⟨changed, deleted⟩ := isEmpty_iff.mp empty
  refine isEmpty_iff.mpr ⟨List.eq_nil_iff_forall_not_mem.mpr fun e member => ?_,
    List.eq_nil_iff_forall_not_mem.mpr fun id member => ?_⟩
  · simpa [changed] using within.changed e member
  · simpa [deleted] using within.deleted id member

theorem not_isEmpty_of_mem (member : e ∈ c.changed.keys) : ¬ c.isEmpty = true := by
  rw [isEmpty_iff, not_and]
  exact fun empty => absurd member (by simp [empty])

theorem not_isEmpty_of_deleted (member : id ∈ c.deletedEdges.keys) : ¬ c.isEmpty = true := by
  rw [isEmpty_iff, not_and]
  exact fun _ empty => absurd member (by simp [empty])

theorem mem_mark {x : ElementRef} : e ∈ (c.mark x).changed.keys ↔ e = x ∨ e ∈ c.changed.keys :=
  OrderedMap.mem_keys_insert

theorem mem_mark_self (c : ChangeList) (x : ElementRef) : x ∈ (c.mark x).changed.keys :=
  mem_mark.mpr (.inl rfl)

theorem within_mark (c : ChangeList) (x : ElementRef) : c.Within (c.mark x) :=
  ⟨fun _ member => mem_mark.mpr (.inr member), fun _ member => member⟩

theorem mem_markNodes {nodes : List NodeId} :
    e ∈ (c.markNodes nodes).changed.keys ↔ e ∈ c.changed.keys ∨ ∃ id ∈ nodes, e = .node id := by
  have marks : c.markNodes nodes = (nodes.map ElementRef.node).foldl mark c := by
    rw [markNodes, List.foldl_map]
    rfl
  rw [marks, View.mem_mark_all, List.mem_map]
  simp only [eq_comm (a := e)]

theorem within_markNodes (c : ChangeList) (nodes : List NodeId) : c.Within (c.markNodes nodes) := by
  induction nodes generalizing c with
  | nil => exact .refl c
  | cons id rest ih => exact (within_mark c (.node id)).trans (ih (c.markNode id))

theorem mem_markDeleted {gone : EdgeId} :
    id ∈ (c.markDeleted gone).deletedEdges.keys ↔ id = gone ∨ id ∈ c.deletedEdges.keys :=
  OrderedMap.mem_keys_insert

theorem within_markDeleted (c : ChangeList) (gone : EdgeId) : c.Within (c.markDeleted gone) :=
  ⟨fun _ member => member, fun _ member => mem_markDeleted.mpr (.inr member)⟩

theorem within_markAllDeleted (c : ChangeList) (edges : List EdgeId) :
    c.Within (c.markAllDeleted edges) := by
  induction edges generalizing c with
  | nil => exact .refl c
  | cons gone rest ih => exact (within_markDeleted c gone).trans (ih (c.markDeleted gone))

end ChangeList

/-- No element of a graph has an identity that a supply has still to give. -/
def IdSupply.Spares (supply : IdSupply) (g : Graph) : Prop :=
  ∀ e : ElementRef, e.existsIn g = true → ¬ supply.Holds e.uuid

/-- The supply that is made for a graph spares it. -/
theorem Graph.freshSupply_spares (g : Graph) : g.freshSupply.Spares g := by
  intro e exists'
  refine IdSupply.not_holds_beyond ?_
  simp only [Graph.identities, List.mem_append, List.mem_map]
  cases e with
  | node id => exact .inl (.inl (.inl ⟨id, OrderedMap.isSome_get?_iff.mp exists', rfl⟩))
  | edge id => exact .inl (.inr ⟨id, OrderedMap.isSome_get?_iff.mp exists', rfl⟩)

namespace EditorState

variable {s s' s'' : EditorState} {id : NodeId} {n : Node}

/-- The links of the graph are in order, and the identities to come are not in use. -/
structure Sound (s : EditorState) : Prop where
  linked : s.graph.Linked
  spared : s.supply.Spares s.graph

/-- An edit has noted what it did: what is new has an identity that was taken for it, what has stayed
stands where it stood, and what the notes leave untouched looks as it did before and was untouched
then. -/
structure Noted (s s' : EditorState) : Prop where
  linked : s'.graph.Linked
  arrivals : ∀ e : ElementRef, e.existsIn s'.graph = true →
    e.existsIn s.graph = true ∧ s'.graph.parentOf e = s.graph.parentOf e ∨
      s.supply.Taken s'.supply e.uuid
  nodes : ∀ {id n}, s'.graph.node? id = some n → ¬ s'.graph.NodeTouched s'.changes id →
    s.graph.node? id = some n ∧ ¬ s.graph.NodeTouched s.changes id
  edges : ∀ {id e}, s'.graph.edge? id = some e → ¬ s'.graph.Touched s'.changes (.edge id) →
    s.graph.edge? id = some e ∧ NodeArtist.drawEdge s'.graph e = NodeArtist.drawEdge s.graph e ∧
      ¬ s.graph.Touched s.changes (.edge id)
  noticed : s'.changes.isEmpty = true → s.changes.isEmpty = true ∧
    ∀ e : ElementRef, e.existsIn s.graph = true → e.existsIn s'.graph = true

/-- An edit that takes identities in order and, as long as they last, notes what it does. -/
structure Proceeds (s s' : EditorState) : Prop where
  extended : s.supply.Extends s'.supply
  noted : s.Sound → s'.supply.next ≤ UInt64.size → s.Noted s'

theorem Noted.trans (first : s.Noted s') (second : s'.Noted s'')
    (extended : s.supply.Extends s'.supply) (extended' : s'.supply.Extends s''.supply) :
    s.Noted s'' where
  linked := second.linked
  arrivals e exists' := by
    rcases second.arrivals e exists' with ⟨before, parent⟩ | taken
    · rcases first.arrivals e before with ⟨start, parent'⟩ | taken
      · exact .inl ⟨start, parent.trans parent'⟩
      · exact .inr (taken.later extended')
    · exact .inr (taken.earlier extended)
  nodes found untouched := by
    obtain ⟨found, untouched⟩ := second.nodes found untouched
    exact first.nodes found untouched
  edges found untouched := by
    obtain ⟨found, same, untouched⟩ := second.edges found untouched
    obtain ⟨found, same', untouched⟩ := first.edges found untouched
    exact ⟨found, same.trans same', untouched⟩
  noticed empty := by
    obtain ⟨empty, stay⟩ := second.noticed empty
    obtain ⟨empty, stay'⟩ := first.noticed empty
    exact ⟨empty, fun e exists' => stay e (stay' e exists')⟩

theorem Noted.sound (noted : s.Noted s') (sound : s.Sound) (extended : s.supply.Extends s'.supply)
    (lasts : s'.supply.next ≤ UInt64.size) : s'.Sound where
  linked := noted.linked
  spared e exists' := by
    rcases noted.arrivals e exists' with ⟨before, -⟩ | taken
    · exact fun held => sound.spared e before (extended.holds held)
    · exact taken.not_holds extended lasts

theorem Noted.of_same (sound : s.Sound) (graph : s'.graph = s.graph)
    (changes : s'.changes = s.changes) : s.Noted s' where
  linked := graph ▸ sound.linked
  arrivals e exists' := .inl (by rw [graph] at exists' ⊢; exact ⟨exists', rfl⟩)
  nodes found untouched := by
    rw [graph] at found
    rw [graph, changes] at untouched
    exact ⟨found, untouched⟩
  edges found untouched := by
    rw [graph] at found ⊢
    rw [graph, changes] at untouched
    exact ⟨found, rfl, untouched⟩
  noticed empty := ⟨changes ▸ empty, fun e exists' => by rwa [graph]⟩

theorem Proceeds.of_same (graph : s'.graph = s.graph) (changes : s'.changes = s.changes)
    (supply : s'.supply = s.supply) : s.Proceeds s' :=
  ⟨supply ▸ .refl _, fun sound _ => .of_same sound graph changes⟩

theorem Proceeds.refl (s : EditorState) : s.Proceeds s := .of_same rfl rfl rfl

theorem Proceeds.trans (first : s.Proceeds s') (second : s'.Proceeds s'') : s.Proceeds s'' where
  extended := first.extended.trans second.extended
  noted sound lasts := by
    have earlier := Nat.le_trans second.extended.next lasts
    have noted := first.noted sound earlier
    exact noted.trans (second.noted (noted.sound sound first.extended earlier) lasts)
      first.extended second.extended

/-- An edit has noted what it did if what it left untouched among the nodes that are there
afterwards, and at the edges that are there afterwards, is as it was. -/
theorem Noted.of_touched (linked : s.graph.Linked) (linked' : s'.graph.Linked)
    (within : s.changes.Within s'.changes)
    (arrivals : ∀ e : ElementRef, e.existsIn s'.graph = true →
      e.existsIn s.graph = true ∧ s'.graph.parentOf e = s.graph.parentOf e ∨
        s.supply.Taken s'.supply e.uuid)
    (touched : ∀ {id n'}, s'.graph.node? id = some n' → s.graph.NodeTouched s.changes id →
      s'.graph.NodeTouched s'.changes id)
    (same : ∀ {id n'}, s'.graph.node? id = some n' → ¬ s'.graph.NodeTouched s'.changes id →
      s.graph.node? id = some n')
    (edges : ∀ {id e}, s'.graph.edge? id = some e →
      s.graph.edge? id = some e ∨ .edge id ∈ s'.changes.changed.keys)
    (ends : ∀ {id e x}, s'.graph.edge? id = some e → e.involvesNode x = true →
      s'.graph.node? x = none → s.graph.node? x = none)
    (noticed : s'.changes.isEmpty = true → ∀ e : ElementRef, e.existsIn s.graph = true →
      e.existsIn s'.graph = true) : s.Noted s' := by
  have untouchedNode : ∀ {id n'}, s'.graph.node? id = some n' →
      ¬ s'.graph.NodeTouched s'.changes id →
        s.graph.node? id = some n' ∧ ¬ s.graph.NodeTouched s.changes id :=
    fun found' untouched => ⟨same found' untouched, fun before => untouched (touched found' before)⟩
  refine ⟨linked', arrivals, untouchedNode, ?_, fun empty => ⟨within.isEmpty empty, noticed empty⟩⟩
  intro id e found' untouched
  simp only [Graph.Touched, not_or, not_exists, not_and] at untouched
  obtain ⟨unmarked, free⟩ := untouched
  have found : s.graph.edge? id = some e := (edges found').resolve_right unmarked
  have atEnd : ∀ {x}, e.involvesNode x = true → ¬ s'.graph.NodeTouched s'.changes x →
      s'.graph.node? x = s.graph.node? x ∧ ¬ s.graph.NodeTouched s.changes x := by
    intro x involved untouched
    cases there : s'.graph.node? x with
    | some n' =>
      obtain ⟨before, untouched⟩ := untouchedNode there untouched
      exact ⟨before.symm, untouched⟩
    | none =>
      have before := ends found' involved there
      refine ⟨before.symm, fun touch => ?_⟩
      obtain ⟨n, living⟩ := linked.exists_of_nodeTouched touch
      simp [before] at living
  obtain ⟨output, untouchedOutput⟩ := atEnd (by simp [Edge.involvesNode]) (free e found').1
  obtain ⟨input, untouchedInput⟩ := atEnd (by simp [Edge.involvesNode]) (free e found').2
  refine ⟨found, ?_, ?_⟩
  · simp only [NodeArtist.drawEdge, NodeArtist.endLabel, output, input]
  · rintro (marked | ⟨e', found'', before⟩)
    · exact unmarked (within.changed _ marked)
    · obtain rfl := Option.some.inj (found''.symm.trans found)
      exact before.elim untouchedOutput untouchedInput

/-- An edit that leaves every node where it stands, and marks what it changes. -/
structure Kept (s s' : EditorState) : Prop where
  within : s.changes.Within s'.changes
  stays : ∀ {id n}, s.graph.node? id = some n →
    ∃ n', s'.graph.node? id = some n' ∧ n'.parent = n.parent
  nodes : ∀ id, s'.graph.node? id = s.graph.node? id ∨ .node id ∈ s'.changes.changed.keys
  newNodes : ∀ {id n}, s'.graph.node? id = some n → s.graph.node? id = none →
    s.supply.Taken s'.supply id.uuid
  edges : ∀ {id e}, s'.graph.edge? id = some e → s.graph.edge? id = some e ∨
    .edge id ∈ s'.changes.changed.keys ∧ s.supply.Taken s'.supply id.uuid
  noticed : s'.changes.isEmpty = true → s'.graph = s.graph

theorem Kept.noted (kept : s.Kept s') (linked : s.graph.Linked) (linked' : s'.graph.Linked) :
    s.Noted s' := by
  have root : ∀ {id n}, s.graph.node? id = some n → s'.graph.root id = s.graph.root id := by
    intro id n found
    obtain ⟨n', found', same⟩ := kept.stays found
    rw [Graph.root, Graph.root, Graph.stackOf?_eq found, Graph.stackOf?_eq found', same]
  refine .of_touched linked linked' kept.within ?_ ?_ ?_ ?_ ?_ ?_
  · intro e exists'
    cases e with
    | node id =>
      obtain ⟨n', found'⟩ := Option.isSome_iff_exists.mp exists'
      cases found : s.graph.node? id with
      | none => exact .inr (kept.newNodes found' found)
      | some n =>
        obtain ⟨n'', found'', parent⟩ := kept.stays found
        refine .inl ⟨by simp [ElementRef.existsIn, found], ?_⟩
        simp only [Graph.parentOf, Graph.stackOf?_eq found, Graph.stackOf?_eq found'', parent]
    | edge id =>
      obtain ⟨e, found'⟩ := Option.isSome_iff_exists.mp exists'
      rcases kept.edges found' with found | ⟨-, taken⟩
      · exact .inl ⟨by simp [ElementRef.existsIn, found], rfl⟩
      · exact .inr taken
  · intro id n' _ touch
    obtain ⟨n, found⟩ := linked.exists_of_nodeTouched touch
    obtain ⟨m, x, marked, foundM, same⟩ := touch
    obtain ⟨x', foundM', -⟩ := kept.stays foundM
    exact ⟨m, x', kept.within.changed _ marked, foundM', by rw [root foundM, root found, same]⟩
  · intro id n' found' untouched
    rcases kept.nodes id with same | marked
    · exact same.symm.trans found'
    · exact absurd ⟨id, n', marked, found', rfl⟩ untouched
  · exact fun found' => (kept.edges found').imp_right And.left
  · intro id e x _ _ gone
    cases found : s.graph.node? x with
    | none => rfl
    | some n =>
      obtain ⟨n', found', -⟩ := kept.stays found
      simp [gone] at found'
  · intro empty e exists'
    rwa [kept.noticed empty]

section Removal

variable (linked : s.graph.Linked) (found : s.graph.node? id = some n)
  (without : Graph.Without id n s.graph s'.graph)
  (marked : ∀ x ∈ id :: n.children ++ n.parent.toList, .node x ∈ s'.changes.changed.keys)

include linked found without marked

/-- What was drawn together with something that is gone is gone itself, or its stack is marked. -/
theorem touched_beside {m k : NodeId} {m' : Node} (there : s'.graph.node? k = some m')
    (gone : m ∈ id :: n.children) (same : s.graph.root m = s.graph.root k) :
    s'.graph.NodeTouched s'.changes k := by
  obtain ⟨stays, -⟩ := without.exists_of_node? there
  have child : ∀ c, c ∈ n.children ↔ s.graph.stackOf? c = some id := fun c => by
    rw [← Graph.children_eq found, linked.mem_children_iff]
  cases stands : n.parent with
  | none =>
    have free := (Graph.stackOf?_eq found).trans stands
    have rootM : s.graph.root m = id := by
      rw [Graph.root_eq_iff free, ← child, ← List.mem_cons]
      exact gone
    rw [same, Graph.root_eq_iff free, ← child, ← List.mem_cons] at rootM
    exact absurd rootM stays
  | some p =>
    have standsId := (Graph.stackOf?_eq found).trans stands
    have free := linked.stackOf?_stack standsId
    have bare := linked.children_eq_nil found stands
    obtain rfl : m = id := by simpa [bare] using gone
    obtain ⟨h, foundP, -⟩ := linked.held found stands
    have staysP : p ∉ m :: n.children := by
      rw [bare, List.mem_singleton]
      rintro rfl
      simp [free] at standsId
    obtain ⟨h', thereP, -⟩ := without.kept foundP staysP
    refine ⟨p, h', marked p (by simp [stands]), thereP, ?_⟩
    rw [without.root_eq there, without.root_eq thereP, ← same, Graph.root_of_stackOf? standsId,
      Graph.root_of_free free]

/-- Taking a node out, when what stood in it and what it stood in are marked with it. -/
theorem noted_without (within : s.changes.Within s'.changes) : s.Noted s' := by
  refine .of_touched linked (without.linked linked found) within ?_ ?_ ?_ ?_ ?_ ?_
  · intro e exists'
    refine .inl ?_
    cases e with
    | node k =>
      obtain ⟨m', there⟩ := Option.isSome_iff_exists.mp exists'
      obtain ⟨-, m, before, -⟩ := without.exists_of_node? there
      exact ⟨by simp [ElementRef.existsIn, before],
        by simp only [Graph.parentOf, without.stackOf?_eq there]⟩
    | edge k =>
      obtain ⟨e, there⟩ := Option.isSome_iff_exists.mp exists'
      have before := without.edge?_of_edge? there
      exact ⟨by simp [ElementRef.existsIn, before], rfl⟩
  · rintro k m' there ⟨m, x, marks, foundM, same⟩
    by_cases gone : m ∈ id :: n.children
    · exact touched_beside linked found without marked there gone same
    · obtain ⟨x', thereM, -⟩ := without.kept foundM gone
      refine ⟨m, x', within.changed _ marks, thereM, ?_⟩
      rw [without.root_eq there, without.root_eq thereM, same]
  · intro k m' there untouched
    obtain ⟨stays, -⟩ := without.exists_of_node? there
    have free : n.parent ≠ some k := fun stands =>
      untouched ⟨k, m', marked k (by simp [stands]), there, rfl⟩
    rw [without.nodes, if_neg stays, if_neg free] at there
    exact there
  · exact fun there => .inl (without.edge?_of_edge? there)
  · intro k e x there involved gone
    cases before : s.graph.node? x with
    | none => rfl
    | some m =>
      obtain ⟨m', thereX, -⟩ := without.kept before (without.stays_of_edge there involved)
      simp [gone] at thereX
  · exact fun empty => absurd empty (ChangeList.not_isEmpty_of_mem (marked id (by simp)))

end Removal

section Views

variable {a : NodeArtist} {v : View}

/-- A view that shows a graph but for what changes have touched does so after an edit that has noted
what it did, unless it showed something under an identity that was yet to be given. -/
theorem Noted.tracks (noted : s.Noted s') (plain : a.Plain)
    (lasts : s'.supply.next ≤ UInt64.size)
    (apart : ∀ {e visual}, v.get? e = some visual → ¬ s.supply.Holds e.uuid)
    (tracks : v.Tracks a s.graph s.changes) : v.Tracks a s'.graph s'.changes where
  framed := tracks.framed
  parents {e visual} shown exists' := by
    rcases noted.arrivals e exists' with ⟨before, same⟩ | taken
    · exact (tracks.parents shown before).trans same.symm
    · exact absurd (taken.holds lasts) (apart shown)
  look e exists' untouched := by
    cases e with
    | node id =>
      obtain ⟨n, found'⟩ := Option.isSome_iff_exists.mp exists'
      obtain ⟨found, untouched⟩ := noted.nodes found' untouched
      rw [tracks.look (.node id) (by simp [ElementRef.existsIn, found]) untouched,
        Graph.pictured_congr plain (found.trans found'.symm)]
    | edge id =>
      obtain ⟨e, found'⟩ := Option.isSome_iff_exists.mp exists'
      obtain ⟨found, same, untouched⟩ := noted.edges found' untouched
      rw [tracks.look (.edge id) (by simp [ElementRef.existsIn, found]) untouched]
      simp [Graph.pictured, found, found', same, Graph.parentOf]
  order {k n} found' untouched' := by
    obtain ⟨found, untouched⟩ := noted.nodes found' untouched'
    rw [tracks.order found untouched, Graph.picturedIn, Graph.picturedIn, Graph.children_eq found,
      Graph.children_eq found']
    refine List.filter_congr fun e member => ?_
    obtain ⟨c, inside, rfl⟩ := List.mem_map.mp member
    obtain ⟨m, foundC', stands⟩ := noted.linked.holds found' inside
    obtain ⟨h, foundH, stack, -⟩ := noted.linked.held foundC' stands
    -- what stands in a stack is touched together with it
    have root : s'.graph.root c = s'.graph.root k := by
      rw [Graph.root_of_stackOf? ((Graph.stackOf?_eq foundC').trans stands),
        Graph.root_of_free ((Graph.stackOf?_eq foundH).trans (noted.linked.flat foundH stack))]
    have away : ¬ s'.graph.NodeTouched s'.changes c := by
      rintro ⟨x, y, marked, foundX, same⟩
      exact untouched' ⟨x, y, marked, foundX, same.trans root⟩
    rw [Graph.pictured_congr plain ((noted.nodes foundC' away).1.trans foundC'.symm)]
  noticed empty {e visual} shown := by
    obtain ⟨empty, stay⟩ := noted.noticed empty
    exact stay e (tracks.noticed empty shown)

end Views

end EditorState

end NodeScript
