import NodeScript.Proofs.OrderedMap
import NodeScript.Editor.Reconcile

/-!
Graphs whose links are in order: what stands in a stack and the stack know each other, and stacks
stand in no stacks. Then going outwards from a node ends after one step at most.
-/

namespace NodeScript

namespace Graph

/-- Nodes and edges are filed under their identities, a node stands in a stack exactly if it is among
what the stack holds, once, and stacks stand in no stacks. -/
structure Linked (g : Graph) : Prop where
  nodeFiled : ∀ {id n}, g.node? id = some n → n.id = id
  edgeFiled : ∀ {id e}, g.edge? id = some e → e.id = id
  held : ∀ {id n s}, g.node? id = some n → n.parent = some s →
    ∃ h, g.node? s = some h ∧ h.kind.isStack = true ∧ id ∈ h.children
  holds : ∀ {s h c}, g.node? s = some h → c ∈ h.children →
    ∃ n, g.node? c = some n ∧ n.parent = some s
  once : ∀ {s h}, g.node? s = some h → h.children.Nodup
  flat : ∀ {s h}, g.node? s = some h → h.kind.isStack = true → h.parent = none

/-- The node that is drawn with a node: its stack, or the node itself. -/
def root (g : Graph) (id : NodeId) : NodeId := (g.stackOf? id).getD id

variable {g : Graph} {id s c : NodeId} {n h : Node}

theorem children_eq (found : g.node? s = some h) : g.children s = h.children := by
  simp [children, found]

theorem stackOf?_eq (found : g.node? id = some n) : g.stackOf? id = n.parent := by
  simp [stackOf?, found]

theorem exists_of_stackOf? (stands : g.stackOf? id = some s) :
    ∃ n, g.node? id = some n ∧ n.parent = some s :=
  Option.bind_eq_some_iff.mp stands

theorem exists_of_mem_children (member : c ∈ g.children s) :
    ∃ h, g.node? s = some h ∧ c ∈ h.children := by
  cases found : g.node? s with
  | none => simp [children, found] at member
  | some h => exact ⟨h, rfl, by simpa [children, found] using member⟩

theorem root_of_stackOf? (stands : g.stackOf? id = some s) : g.root id = s := by
  simp [root, stands]

theorem root_of_free (free : g.stackOf? id = none) : g.root id = id := by simp [root, free]

theorem root_eq_iff (free : g.stackOf? s = none) :
    g.root id = s ↔ id = s ∨ g.stackOf? id = some s := by
  cases stands : g.stackOf? id with
  | none =>
    rw [root_of_free stands]
    simp
  | some t =>
    rw [root_of_stackOf? stands]
    constructor
    · exact fun same => .inr (congrArg some same)
    · rintro (rfl | same)
      · rw [stands] at free
        simp at free
      · exact Option.some.inj same

namespace Linked

/-- Links are in order if every node and every edge of a graph passes a check. -/
theorem of_entries
    (nodes : ∀ e ∈ g.nodes.entries, e.2.id = e.1 ∧ e.2.children.Nodup ∧
      (e.2.kind.isStack = true → e.2.parent = none) ∧
      (∀ s ∈ e.2.parent, ∃ h ∈ g.node? s, h.kind.isStack = true ∧ e.1 ∈ h.children) ∧
      ∀ c ∈ e.2.children, ∃ n ∈ g.node? c, n.parent = some e.1)
    (edges : ∀ e ∈ g.edges.entries, e.2.id = e.1) : g.Linked where
  nodeFiled found := (nodes _ (OrderedMap.get?_eq_some_iff.mp found)).1
  edgeFiled found := edges _ (OrderedMap.get?_eq_some_iff.mp found)
  once found := (nodes _ (OrderedMap.get?_eq_some_iff.mp found)).2.1
  flat found := (nodes _ (OrderedMap.get?_eq_some_iff.mp found)).2.2.1
  held found stands := (nodes _ (OrderedMap.get?_eq_some_iff.mp found)).2.2.2.1 _ stands
  holds found inside := (nodes _ (OrderedMap.get?_eq_some_iff.mp found)).2.2.2.2 _ inside

theorem mem_children_iff (linked : g.Linked) : c ∈ g.children s ↔ g.stackOf? c = some s := by
  constructor
  · intro member
    obtain ⟨h, found, inside⟩ := exists_of_mem_children member
    obtain ⟨n, foundC, stands⟩ := linked.holds found inside
    rw [stackOf?_eq foundC, stands]
  · intro stands
    obtain ⟨n, found, stands⟩ := exists_of_stackOf? stands
    obtain ⟨h, foundS, _, inside⟩ := linked.held found stands
    rwa [children_eq foundS]

/-- What something stands in stands in nothing itself. -/
theorem stackOf?_stack (linked : g.Linked) (stands : g.stackOf? id = some s) :
    g.stackOf? s = none := by
  obtain ⟨n, found, stands⟩ := exists_of_stackOf? stands
  obtain ⟨h, foundS, stack, _⟩ := linked.held found stands
  rw [stackOf?_eq foundS, linked.flat foundS stack]

theorem stackOf?_root (linked : g.Linked) (id : NodeId) : g.stackOf? (g.root id) = none := by
  cases stands : g.stackOf? id with
  | none => rwa [root_of_free stands]
  | some s =>
    rw [root_of_stackOf? stands]
    exact linked.stackOf?_stack stands

theorem isSome_root (linked : g.Linked) (found : g.node? id = some n) :
    ∃ h, g.node? (g.root id) = some h := by
  cases stands : n.parent with
  | none => exact ⟨n, by rw [root_of_free ((stackOf?_eq found).trans stands), found]⟩
  | some s =>
    obtain ⟨h, foundS, _⟩ := linked.held found stands
    exact ⟨h, by rw [root_of_stackOf? ((stackOf?_eq found).trans stands), foundS]⟩

/-- Going outwards comes to the node that is drawn with a node. -/
theorem outermostStack?_eq (linked : g.Linked) (id : NodeId) :
    g.outermostStack? id = some (g.root id) := by
  rw [outermostStack?, outermostFrom]
  cases stands : g.stackOf? id with
  | none => rw [root_of_free stands]
  | some s =>
    have free := linked.stackOf?_stack stands
    have away : s ≠ id := by
      rintro rfl
      rw [stands] at free
      simp at free
    simp only [away, if_false]
    rw [root_of_stackOf? stands, outermostFrom, free]

end Linked

end Graph

end NodeScript
