import Mathlib.Logic.Relation
import NodeScript.Proofs.Graph.Join
import NodeScript.Proofs.Graph.Removal

/-!
Nodes that are taken out with all that is listed in one another, whatever a graph lists and where. The
removal comes to its end, for every node that it takes makes the graph smaller, and what it takes are
the nodes that the lists lead to. With a node go its edges, the variables that belong to it as a
function, and its place in the node that it stands in.
-/

namespace NodeScript

/-- A node that no longer lists some of the nodes that it listed. -/
def Node.release (n : Node) (dropped : NodeId → Bool) : Node :=
  { n with children := n.children.filter fun c => !dropped c }

theorem Node.release_release (n : Node) (dropped also : NodeId → Bool) :
    (n.release dropped).release also = n.release fun c => dropped c || also c := by
  simp only [release, List.filter_filter, Bool.not_or, Bool.and_comm]

theorem Node.release_nothing (n : Node) : (n.release fun _ => false) = n := by
  simp [release]

theorem Node.release_congr {n : Node} {dropped dropped' : NodeId → Bool}
    (same : ∀ c ∈ n.children, dropped c = dropped' c) : n.release dropped = n.release dropped' := by
  have children : n.children.filter (fun c => !dropped c) = n.children.filter fun c => !dropped' c :=
    List.filter_congr fun c inside => by rw [same c inside]
  rw [release, release, children]

theorem Node.dropChild_eq_release (n : Node) (child : NodeId) :
    n.dropChild child = n.release fun c => decide (c = child) := by
  simp only [dropChild, release, decide_not]

namespace Graph

open Relation

variable {g g' g'' : Graph} {id k c s : NodeId} {n m : Node} {gone also : NodeId → Bool}

/-- One node lists another among what stands in it. -/
def Lists (g : Graph) (s c : NodeId) : Prop := ∃ h, g.node? s = some h ∧ c ∈ h.children

/-- Whether a node is a function. -/
def isFunction (g : Graph) (id : NodeId) : Bool := (g.node? id).any (·.kind.function?.isSome)

theorem isStack_of_isFunction (found : g.node? k = some n) (function : g.isFunction k = true) :
    n.kind.isStack = true := by
  rw [isFunction, found, Option.any_some] at function
  cases kind : n.kind <;> simp_all [NodeKind.function?, NodeKind.isStack]

/-- The removal of nodes one after the other, each with all that it lists, as it runs: it goes as deep
as the lists lead, and nothing but its own course brings it to an end. -/
inductive Removes : Graph → List NodeId → Graph → Prop
  | done {g : Graph} : Removes g [] g
  | absent {g g' : Graph} {c : NodeId} {rest : List NodeId} : g.node? c = none →
      Removes g rest g' → Removes g (c :: rest) g'
  | taken {g inner g' : Graph} {c : NodeId} {n : Node} {rest : List NodeId} :
      g.node? c = some n → Removes { g with nodes := g.nodes.erase c } n.children inner →
      Removes (inner.forget n c) rest g' → Removes g (c :: rest) g'

/-- Some nodes of a graph are gone. The others are in their order and what they were, apart from the
gone ones that stood in them; and gone are just the edges at those nodes and the variables of the
functions among them. -/
structure Cut (gone : NodeId → Bool) (g g' : Graph) : Prop where
  there : ∀ {k}, gone k = true → ∃ n, g.node? k = some n
  nodes : ∀ k, g'.node? k = if gone k then none else
    (g.node? k).map (·.release fun c => gone c && g.stackOf? c = some k)
  order : g'.nodes.keys = g.nodes.keys.filter fun k => !gone k
  edges : g'.edges = g.edges.filter fun _ e => !(gone e.output.node || gone e.input.node)
  vars : g'.vars = g.vars.filter fun _ v => !v.scope.function?.any fun f => gone f && g.isFunction f
  name : g'.name = g.name
  stencil : g'.stencil = g.stencil

namespace Cut

theorem refl (g : Graph) : Cut (fun _ => false) g g where
  there := nofun
  nodes k := by
    cases g.node? k <;> simp [Node.release_nothing]
  order := by simp
  edges := (OrderedMap.filter_eq_self fun _ _ => rfl).symm
  vars := by
    rw [OrderedMap.filter_eq_self fun _ v => ?_]
    cases v.scope.function? <;> rfl
  name := rfl
  stencil := rfl

section

variable (cut : Cut gone g g')

include cut

theorem exists_of_node? (found : g'.node? k = some m) : gone k = false ∧
    ∃ n, g.node? k = some n ∧ m = n.release fun c => gone c && g.stackOf? c = some k := by
  rw [cut.nodes] at found
  split at found
  · cases found
  · rename_i stays
    obtain ⟨n, before, rfl⟩ := Option.map_eq_some_iff.mp found
    exact ⟨by simpa using stays, n, before, rfl⟩

theorem node?_of_stays (found : g.node? k = some n) (stays : gone k = false) :
    g'.node? k = some (n.release fun c => gone c && g.stackOf? c = some k) := by
  rw [cut.nodes, stays, found]
  rfl

theorem stackOf?_eq (found : g'.node? k = some m) : g'.stackOf? k = g.stackOf? k := by
  obtain ⟨-, n, before, rfl⟩ := cut.exists_of_node? found
  rw [Graph.stackOf?_eq found, Graph.stackOf?_eq before]
  rfl

theorem isFunction_eq (found : g'.node? k = some m) : g'.isFunction k = g.isFunction k := by
  obtain ⟨-, n, before, rfl⟩ := cut.exists_of_node? found
  rw [isFunction, isFunction, found, before]
  rfl

theorem lists (listed : g'.Lists s c) : g.Lists s c := by
  obtain ⟨h', found, inside⟩ := listed
  obtain ⟨-, h, before, rfl⟩ := cut.exists_of_node? found
  exact ⟨h, before, (List.mem_filter.mp inside).1⟩

theorem size_le : g'.nodes.size ≤ g.nodes.size := by
  rw [← OrderedMap.length_keys, ← OrderedMap.length_keys, cut.order]
  exact List.length_filter_le _ _

/-- What is gone after two cuts is gone after one of them. -/
theorem trans (next : Cut also g' g'') : Cut (fun k => gone k || also k) g g'' := by
  have later : ∀ {k}, also k = true → ∃ m, g'.node? k = some m := next.there
  refine ⟨fun {k} out => ?_, fun k => ?_, ?_, ?_, ?_, next.name.trans cut.name,
    next.stencil.trans cut.stencil⟩
  · rcases (Bool.or_eq_true _ _).mp out with first | second
    · exact cut.there first
    · obtain ⟨m, found⟩ := later second
      obtain ⟨-, n, before, -⟩ := cut.exists_of_node? found
      exact ⟨n, before⟩
  · rw [next.nodes, cut.nodes]
    cases first : gone k with
    | true => simp
    | false =>
      cases second : also k with
      | true => simp
      | false =>
        simp only [Bool.or_self, Bool.false_eq_true, if_false, Option.map_map]
        congr 1
        funext n
        rw [Function.comp_apply, Node.release_release]
        refine Node.release_congr fun c _ => ?_
        cases out : also c with
        | false => simp
        | true =>
          obtain ⟨m, found⟩ := later out
          rw [cut.stackOf?_eq found]
          cases gone c <;> simp
  · rw [next.order, cut.order, List.filter_filter]
    simp only [Bool.not_or, Bool.and_comm]
  · rw [next.edges, cut.edges, OrderedMap.filter_filter]
    congr 1
    funext _ e
    simp only [Bool.not_or]
    ac_rfl
  · rw [next.vars, cut.vars, OrderedMap.filter_filter]
    congr 1
    funext _ v
    cases v.scope.function? with
    | none => rfl
    | some f =>
      simp only [Option.any_some]
      cases out : also f with
      | false => simp
      | true =>
        obtain ⟨m, found⟩ := later out
        rw [cut.isFunction_eq found]
        cases gone f <;> cases g.isFunction f <;> rfl

end

/-- Forgetting a node leaves which nodes there are. -/
theorem keys_forget : (g.forget n id).nodes.keys = g.nodes.keys := by
  unfold forget
  dsimp only
  split
  · exact OrderedMap.keys_modify
  · rfl

theorem vars_forget : (g.forget n id).vars =
    g.vars.filter fun _ v => !(n.kind.function?.isSome && v.scope.function? = some id) := by
  unfold forget
  dsimp only
  split
  · rename_i decl kind
    simp only [kind, NodeKind.function?, Option.isSome_some, Bool.true_and]
  · rename_i plain
    have none : n.kind.function? = none := by
      cases kind : n.kind <;> first | rfl | exact absurd kind (plain _)
    simp only [none, Option.isSome_none, Bool.false_and, Bool.not_false]
    exact (OrderedMap.filter_eq_self fun _ _ => rfl).symm

section Taking

variable (cut : Cut gone { g with nodes := g.nodes.erase id } g')

include cut

theorem ne_of_gone (out : gone k = true) : k ≠ id := by
  obtain ⟨m, here⟩ := cut.there out
  exact (node?_erase_eq_some_iff.mp here).1

theorem stackOf?_of_gone (out : gone c = true) :
    Graph.stackOf? { g with nodes := g.nodes.erase id } c = g.stackOf? c := by
  rw [stackOf?, stackOf?, node?_erase, if_neg (cut.ne_of_gone out)]

theorem isFunction_of_gone (out : gone c = true) :
    Graph.isFunction { g with nodes := g.nodes.erase id } c = g.isFunction c := by
  rw [isFunction, isFunction, node?_erase, if_neg (cut.ne_of_gone out)]

variable (found : g.node? id = some n)

include found

/-- A node that stays lists no longer what is gone, and not the node that was taken out either. -/
theorem take_nodes (k : NodeId) : (g'.forget n id).node? k = if k = id || gone k then none else
    (g.node? k).map (·.release fun c => (c = id || gone c) && g.stackOf? c = some k) := by
  rw [node?_forget, cut.nodes, node?_erase]
  by_cases self : k = id
  · simp [self]
  cases out : gone k with
  | true => simp
  | false =>
    -- of the node that was taken out it is known where it stood
    have released : ∀ m : Node, (m.release fun c => (c = id || gone c) && g.stackOf? c = some k) =
        (m.release fun c => gone c && g.stackOf? c = some k).release
          fun c => c = id && n.parent = some k := by
      intro m
      rw [Node.release_release]
      refine Node.release_congr fun c _ => ?_
      by_cases here : c = id
      · rw [here, Graph.stackOf?_eq found]
        cases gone id <;> simp
      · simp [here]
    have same : ∀ m : Node, (m.release fun c => gone c &&
        Graph.stackOf? { g with nodes := g.nodes.erase id } c = some k) =
          m.release fun c => gone c && g.stackOf? c = some k := by
      refine fun m => Node.release_congr fun c _ => ?_
      cases outC : gone c with
      | false => rfl
      | true => rw [cut.stackOf?_of_gone outC]
    simp only [self, decide_false, Bool.or_self, Bool.false_eq_true, if_false, same, released]
    by_cases stands : n.parent = some k
    · simp only [stands, if_true, Option.map_map, decide_true, Bool.and_true]
      congr 1
      funext m
      rw [Function.comp_apply, Node.dropChild_eq_release]
    · simp only [stands, if_false, decide_false, Bool.and_false, Node.release_nothing]

theorem take_vars : (g'.forget n id).vars = g.vars.filter fun _ v =>
    !v.scope.function?.any fun f => (f = id || gone f) && g.isFunction f := by
  rw [vars_forget, cut.vars, OrderedMap.filter_filter]
  congr 1
  funext _ v
  cases v.scope.function? with
  | none => simp
  | some f =>
    have itself : g.isFunction id = n.kind.function?.isSome := by
      rw [isFunction, found]
      rfl
    simp only [Option.any_some, ← Bool.not_or, Option.some.injEq]
    congr 1
    by_cases here : f = id
    · rw [here, itself, Bool.eq_false_iff.mpr fun out => cut.ne_of_gone out rfl]
      simp
    · cases out : gone f with
      | false => simp [here]
      | true => simp [here, cut.isFunction_of_gone out]

/-- A node is taken out, then what it lists, and then what refers to it is forgotten. -/
theorem take : Cut (fun k => k = id || gone k) g (g'.forget n id) where
  there {k} out := by
    rcases (Bool.or_eq_true _ _).mp out with self | out
    · exact ⟨n, of_decide_eq_true self ▸ found⟩
    · obtain ⟨m, before⟩ := cut.there out
      exact ⟨m, (node?_erase_eq_some_iff.mp before).2⟩
  nodes := cut.take_nodes found
  order := by
    rw [keys_forget, cut.order, OrderedMap.keys_erase, List.filter_filter]
    congr 1
    funext k
    cases gone k <;> simp
  edges := by
    have kept : (g'.forget n id).edges = g'.edges.filter fun _ e => !e.involvesNode id := rfl
    rw [kept, cut.edges, OrderedMap.filter_filter]
    congr 1
    funext _ e
    simp only [Edge.involvesNode, ← Bool.not_or]
    congr 1
    ac_rfl
  vars := cut.take_vars found
  name := cut.name
  stencil := cut.stencil

end Taking

/-- A node that stays lists what it listed, apart from what is gone. -/
theorem lists_of_stays (cut : Cut gone g g') (listed : g.Lists s c) (staysS : gone s = false)
    (staysC : gone c = false) : g'.Lists s c := by
  obtain ⟨h, found, inside⟩ := listed
  exact ⟨_, cut.node?_of_stays found staysS, List.mem_filter.mpr ⟨inside, by simp [staysC]⟩⟩

theorem exists_of_stays (cut : Cut gone g g') (found : ∃ n, g.node? k = some n)
    (stays : gone k = false) : ∃ m, g'.node? k = some m :=
  let ⟨_, found⟩ := found
  ⟨_, cut.node?_of_stays found stays⟩

end Cut

/-- A node is there, and the lists lead to it from one of some nodes. -/
def Below (g : Graph) (ids : List NodeId) (k : NodeId) : Prop :=
  (∃ n, g.node? k = some n) ∧ ∃ i ∈ ids, ReflTransGen g.Lists i k

namespace Below

variable {ids ids' : List NodeId}

theorem of_mem (member : k ∈ ids) (found : ∃ n, g.node? k = some n) : g.Below ids k :=
  ⟨found, k, member, .refl⟩

theorem step (below : g.Below ids s) (listed : g.Lists s k) (found : ∃ n, g.node? k = some n) :
    g.Below ids k :=
  let ⟨_, i, member, way⟩ := below
  ⟨found, i, member, way.tail listed⟩

/-- Below some nodes is nothing but what is in every collection that has these nodes and, with a node,
all that it lists. -/
theorem induct (inside : NodeId → Prop)
    (first : ∀ i ∈ ids, (∃ n, g.node? i = some n) → inside i)
    (next : ∀ s k, inside s → g.Lists s k → (∃ n, g.node? k = some n) → inside k)
    (below : g.Below ids k) : inside k := by
  obtain ⟨found, i, member, way⟩ := below
  induction way with
  | refl => exact first i member found
  | @tail s k _ listed ih =>
    obtain ⟨h, foundS, -⟩ := id listed
    exact next s k (ih ⟨h, foundS⟩) listed found

theorem mono (below : g'.Below ids k) (there : ∀ {k n}, g'.node? k = some n → ∃ n, g.node? k = some n)
    (lists : ∀ {s c}, g'.Lists s c → g.Lists s c)
    (members : ∀ i ∈ ids, (∃ n, g.node? i = some n) → g.Below ids' i) : g.Below ids' k :=
  below.induct (g.Below ids') (fun i member ⟨_, found⟩ => members i member (there found))
    fun _ _ under listed ⟨_, found⟩ => under.step (lists listed) (there found)

end Below

/-- One removal after the other takes what is below the nodes of either. -/
theorem Cut.below_trans {ids ids' : List NodeId} (cut : Cut gone g g')
    (taken : ∀ k, gone k = true ↔ g.Below ids k) (takenNext : ∀ k, also k = true ↔ g'.Below ids' k)
    (k : NodeId) : (gone k || also k) = true ↔ g.Below (ids ++ ids') k := by
  rw [Bool.or_eq_true]
  constructor
  · rintro (first | second)
    · exact ((taken k).mp first).mono (fun found => ⟨_, found⟩) (fun listed => listed)
        fun i member found => .of_mem (List.mem_append_left _ member) found
    · refine ((takenNext k).mp second).mono (fun found => ?_) cut.lists
        fun i member found => .of_mem (List.mem_append_right _ member) found
      obtain ⟨-, n, before, -⟩ := cut.exists_of_node? found
      exact ⟨n, before⟩
  · intro below
    refine below.induct (fun k => gone k = true ∨ also k = true) (fun i member found => ?_)
      fun s k inside listed found => ?_
    · by_cases first : gone i = true
      · exact .inl first
      · have later : i ∈ ids' := (List.mem_append.mp member).resolve_left fun member =>
          first ((taken i).mpr (.of_mem member found))
        exact .inr ((takenNext i).mpr
          (.of_mem later (cut.exists_of_stays found (Bool.eq_false_iff.mpr first))))
    · by_cases first : gone k = true
      · exact .inl first
      · have stays := Bool.eq_false_iff.mpr first
        have staysS : gone s = false := Bool.eq_false_iff.mpr fun out =>
          first ((taken k).mpr (((taken s).mp out).step listed found))
        have second := (takenNext s).mp (inside.resolve_left (Bool.eq_false_iff.mp staysS))
        exact .inr ((takenNext k).mpr
          (second.step (cut.lists_of_stays listed staysS stays) (cut.exists_of_stays found stays)))

/-- With a node goes what is below the nodes that it lists, once it is out itself. -/
theorem below_take (found : g.node? id = some n)
    (taken : ∀ k, gone k = true ↔ Graph.Below { g with nodes := g.nodes.erase id } n.children k)
    (k : NodeId) : (decide (k = id) || gone k) = true ↔ g.Below [id] k := by
  have after : ∀ {k}, k ≠ id → (∃ m, g.node? k = some m) →
      ∃ m, Graph.node? { g with nodes := g.nodes.erase id } k = some m :=
    fun other ⟨m, there⟩ => ⟨m, node?_erase_eq_some_iff.mpr ⟨other, there⟩⟩
  rw [Bool.or_eq_true, decide_eq_true_iff]
  constructor
  · rintro (rfl | out)
    · exact .of_mem (.head _) ⟨n, found⟩
    · refine ((taken k).mp out).mono (fun there => ⟨_, (node?_erase_eq_some_iff.mp there).2⟩) ?_
        fun i member there => (Below.of_mem (.head _) ⟨n, found⟩).step ⟨n, found, member⟩ there
      rintro s c ⟨h, there, inside⟩
      exact ⟨h, (node?_erase_eq_some_iff.mp there).2, inside⟩
  · intro below
    refine below.induct (fun k => k = id ∨ gone k = true)
      (fun i member _ => .inl (List.mem_singleton.mp member)) fun s k inside listed there => ?_
    by_cases self : k = id
    · exact .inl self
    · refine .inr ((taken k).mpr ?_)
      obtain ⟨h, foundS, member⟩ := listed
      rcases inside with rfl | out
      · obtain rfl := Option.some.inj (found.symm.trans foundS)
        exact .of_mem member (after self there)
      · have under := (taken s).mp out
        obtain ⟨m, here⟩ := under.1
        obtain ⟨-, foundS'⟩ := node?_erase_eq_some_iff.mp here
        obtain rfl := Option.some.inj (foundS'.symm.trans foundS)
        exact under.step ⟨m, here, member⟩ (after self there)

/-- What a removal takes is what the lists lead to from the nodes that it is asked for. -/
theorem Removes.cut {ids : List NodeId} (run : Removes g ids g') :
    ∃ gone, Cut gone g g' ∧ ∀ k, gone k = true ↔ g.Below ids k := by
  induction run with
  | @done g => exact ⟨_, .refl g, fun k => ⟨nofun, fun ⟨_, i, member, _⟩ => nomatch member⟩⟩
  | @absent g g' c rest missing _ ih =>
    obtain ⟨gone, cut, taken⟩ := ih
    have nothing : ∀ k, false = true ↔ g.Below [c] k := by
      refine fun k => ⟨nofun, fun below => ?_⟩
      refine below.induct (fun _ => false = true) (fun i member there => ?_)
        fun _ _ inside _ _ => inside
      obtain ⟨n, there⟩ := there
      rw [List.mem_singleton.mp member, missing] at there
      cases there
    exact ⟨_, (Cut.refl g).trans cut, (Cut.refl g).below_trans nothing taken⟩
  | taken found _ _ ihInner ihRest =>
    obtain ⟨gone, cut, taken⟩ := ihInner
    obtain ⟨also, next, takenNext⟩ := ihRest
    exact ⟨_, (cut.take found).trans next, (cut.take found).below_trans (below_take found taken) takenNext⟩

/-- A removal comes to one result only. -/
theorem Removes.unique {ids : List NodeId} (run : Removes g ids g') (other : Removes g ids g'') :
    g' = g'' := by
  induction run generalizing g'' with
  | done =>
    cases other
    rfl
  | absent missing _ ih =>
    cases other with
    | absent _ rest => exact ih rest
    | taken found _ _ =>
      rw [missing] at found
      cases found
  | taken found _ _ ihInner ihRest =>
    cases other with
    | absent missing _ =>
      rw [missing] at found
      cases found
    | taken found' inner rest =>
      obtain rfl := Option.some.inj (found.symm.trans found')
      obtain rfl := ihInner inner
      exact ihRest rest

theorem size_erase_lt (found : g.node? id = some n) : (g.nodes.erase id).size < g.nodes.size := by
  rw [← OrderedMap.length_keys, ← OrderedMap.length_keys, OrderedMap.keys_erase]
  exact List.length_filter_lt_length_iff_exists.mpr
    ⟨id, OrderedMap.mem_keys_of_get? found, by simp⟩

/-- As deep as the graph is large, a removal runs to its end. -/
theorem removeWithin_removes (depth : Nat) (ids : List NodeId) (enough : g.nodes.size ≤ depth) :
    Removes g ids (ids.foldl (removeWithin depth) g) := by
  induction depth generalizing g ids with
  | zero =>
    have nothing : ∀ c, g.node? c = none := by
      intro c
      rw [node?, OrderedMap.get?_eq_none_iff]
      have empty : g.nodes.keys = [] := by
        rw [← List.length_eq_zero_iff, OrderedMap.length_keys]
        omega
      simp [empty]
    induction ids with
    | nil => exact .done
    | cons c rest ih => exact .absent (nothing c) ih
  | succ depth deeper =>
    induction ids generalizing g with
    | nil => exact .done
    | cons c rest ih =>
      rw [List.foldl_cons, removeWithin]
      cases found : g.node? c with
      | none => exact .absent found (ih enough)
      | some n =>
        have smaller := size_erase_lt found
        have inner := deeper (g := { g with nodes := g.nodes.erase c }) n.children
          (by dsimp only; omega)
        obtain ⟨gone, cut, -⟩ := inner.cut
        exact .taken found inner (ih ((cut.take found).size_le.trans enough))

/-- What a node lists and is there, stands in it. -/
def ListsAgree (g : Graph) : Prop :=
  ∀ {s h c m}, g.node? s = some h → c ∈ h.children → g.node? c = some m → m.parent = some s

theorem ListsAgree.of_entries (agree : ∀ e ∈ g.nodes.entries, ∀ c ∈ e.2.children,
    ∀ m ∈ g.node? c, m.parent = some e.1) : g.ListsAgree :=
  fun found inside there => agree _ (OrderedMap.get?_eq_some_iff.mp found) _ inside _ there

/-- A graph without some of its nodes, the edges at them, and the variables of the functions among
them. What is left is what it was and in its order. -/
def pruned (g : Graph) (gone : NodeId → Bool) : Graph :=
  { g with
    nodes := g.nodes.filter fun k _ => !gone k
    edges := g.edges.filter fun _ e => !(gone e.output.node || gone e.input.node)
    vars := g.vars.filter fun _ v => !v.scope.function?.any fun f => gone f && g.isFunction f }

/-- A graph where a node is no longer listed in what it stood in. -/
def unlist (g : Graph) (n : Node) (id : NodeId) : Graph :=
  { g with
    nodes := match n.parent with
      | some parent => g.nodes.modify parent (·.dropChild id)
      | none => g.nodes }

theorem nodes_unlist : (g.unlist n id).nodes = (g.forget n id).nodes := rfl

theorem node?_pruned : (g.pruned gone).node? k = if gone k then none else g.node? k := by
  have filtered : (g.pruned gone).node? k = (g.node? k).filter fun _ => !gone k :=
    OrderedMap.get?_filter
  rw [filtered]
  cases g.node? k <;> cases gone k <;> rfl

theorem keys_pruned : (g.pruned gone).nodes.keys = g.nodes.keys.filter fun k => !gone k := by
  simp only [pruned, OrderedMap.filter, OrderedMap.keys, List.filter_map]
  rfl

/-- Where the lists agree, of what is taken only the node that it begins with is listed in a node that
stays. -/
theorem Cut.eq_pruned (cut : Cut gone g g') (taken : ∀ k, gone k = true ↔ g.Below [id] k)
    (agree : g.ListsAgree) (found : g.node? id = some n) : g' = (g.pruned gone).unlist n id := by
  have itself : gone id = true := (taken id).mpr (.of_mem (.head _) ⟨n, found⟩)
  have listed : ∀ {c s}, gone s = false →
      (gone c && decide (g.stackOf? c = some s)) = (decide (c = id) && decide (n.parent = some s)) := by
    intro c s stays
    by_cases self : c = id
    · rw [self, itself, Graph.stackOf?_eq found]
      simp
    · rw [decide_eq_false self, Bool.false_and]
      refine Bool.eq_false_iff.mpr fun out => ?_
      obtain ⟨out, stands⟩ := (Bool.and_eq_true _ _).mp out
      obtain ⟨⟨m, there⟩, i, member, way⟩ := (taken c).mp out
      obtain rfl := List.mem_singleton.mp member
      obtain same | ⟨s', way, h, foundS, inside⟩ := way.cases_tail
      · exact self same
      · rw [Graph.stackOf?_eq there, agree foundS inside there, decide_eq_true_iff] at stands
        obtain rfl := Option.some.inj stands
        rw [(taken s').mpr ⟨⟨h, foundS⟩, i, member, way⟩] at stays
        cases stays
  have nodes : g'.nodes = ((g.pruned gone).unlist n id).nodes := by
    refine OrderedMap.ext_get? ?_ fun k => ?_
    · rw [cut.order, nodes_unlist, keys_forget, keys_pruned]
    · have same : g'.node? k = ((g.pruned gone).forget n id).node? k := by
        rw [cut.nodes, node?_forget, node?_pruned]
        cases out : gone k with
        | true => simp
        | false =>
          simp only [listed out, Bool.false_eq_true, if_false]
          split
          · rename_i stands
            simp only [stands, decide_true, Bool.and_true, Node.dropChild_eq_release]
          · rename_i free
            simp only [free, decide_false, Bool.and_false, Node.release_nothing, Option.map_id']
      exact same
  calc g' = ⟨g'.name, g'.stencil, g'.nodes, g'.edges, g'.vars⟩ := rfl
    _ = (g.pruned gone).unlist n id := by
      rw [nodes, cut.edges, cut.vars, cut.name, cut.stencil]
      rfl

theorem remove_removes (g : Graph) (id : NodeId) : Removes g [id] (g.remove id).2 :=
  removeWithin_removes g.nodes.size [id] (Nat.le_refl _)

/-- Removing a node and then others is one removal of all of them. -/
theorem Removes.before {ids : List NodeId} (one : Removes g [id] g')
    (rest : Removes g' ids g'') : Removes g (id :: ids) g'' := by
  cases one with
  | absent missing done =>
    cases done
    exact .absent missing rest
  | taken found inner done =>
    cases done
    exact .taken found inner rest

theorem foldl_remove_removes (g : Graph) (ids : List NodeId) :
    Removes g ids (ids.foldl (fun g id => (g.remove id).2) g) := by
  induction ids generalizing g with
  | nil => exact .done
  | cons id rest ih => exact (remove_removes g id).before (ih _)

/-- The removal of a node runs to its end in every graph, also where lists lead in circles, and comes
to one result only. Where the lists agree, it takes the node with all that the lists lead to from it,
the edges at these nodes, the variables of the functions among them, and the place of the node in what
it stood in. All else is what it was and in its order. -/
theorem remove_eq_pruned (g : Graph) (id : NodeId) :
    (∀ g', Removes g [id] g' ↔ g' = (g.remove id).2) ∧
    (g.node? id = none → g.remove id = (none, g)) ∧
    (g.ListsAgree → ∀ n, g.node? id = some n → ∃ gone : NodeId → Bool,
      (∀ k, gone k = true ↔ (∃ m, g.node? k = some m) ∧ ReflTransGen g.Lists id k) ∧
      g.remove id = (some n, (g.pruned gone).unlist n id)) := by
  have run : Removes g [id] (g.remove id).2 := remove_removes g id
  refine ⟨fun g' => ⟨fun other => other.unique run, ?_⟩, fun missing => ?_,
    fun agree n found => ?_⟩
  · rintro rfl
    exact run
  · have same := run.unique (.absent missing .done)
    exact Prod.ext missing same
  · obtain ⟨gone, cut, taken⟩ := run.cut
    refine ⟨gone, fun k => (taken k).trans ?_, Prod.ext found (cut.eq_pruned taken agree found)⟩
    simp [Below]

/-- A function and a stack that list each other, beside a stack that holds a node. -/
def circle : Graph :=
  let stackPorts := [PortSpec.execInput "In", .execOutput "Out"]
  { Graph.empty "Circle" with
    nodes := ⟨
      [placed 10 (.function (.onEvent .start)) (some ⟨numbered 20⟩) [⟨numbered 20⟩] [.execOutput "Out"],
        placed 20 .stack (some ⟨numbered 10⟩) [⟨numbered 10⟩] stackPorts,
        placed 30 .stack none [⟨numbered 40⟩] stackPorts,
        placed 40 .branch (some ⟨numbered 30⟩) []
          [.dataInput "Condition" .bool, .execOutput "Then", .execOutput "Else"],
        placed 50 .stack none [] stackPorts], by decide⟩
    edges := ⟨[wired 71 10 11 30 31, wired 72 40 42 20 21, wired 73 40 43 50 51], by decide⟩
    vars := ⟨
      [(⟨numbered 80⟩, ⟨⟨numbered 80⟩, "count", .float, .local ⟨numbered 10⟩, false, none⟩),
        (⟨numbered 81⟩, ⟨⟨numbered 81⟩, "speed", .float, .field, true, none⟩)], by decide⟩ }

theorem remove_eq_pruned_circle :
    let removed := circle.remove ⟨numbered 20⟩
    circle.ListsAgree ∧
      removed.2.nodes.keys = [⟨numbered 30⟩, ⟨numbered 40⟩, ⟨numbered 50⟩] ∧
      removed.2.edges.keys = [⟨numbered 73⟩] ∧ removed.2.vars.keys = [⟨numbered 81⟩] ∧
      ∃ n, circle.node? ⟨numbered 20⟩ = some n ∧ ∃ gone : NodeId → Bool,
        (∀ k, gone k = true ↔
          (∃ m, circle.node? k = some m) ∧ ReflTransGen circle.Lists ⟨numbered 20⟩ k) ∧
        removed = (some n, (circle.pruned gone).unlist n ⟨numbered 20⟩) := by
  have agree : circle.ListsAgree := ListsAgree.of_entries (by decide)
  obtain ⟨n, found⟩ := Option.isSome_iff_exists.mp
    (show (circle.node? ⟨numbered 20⟩).isSome = true by decide)
  exact ⟨agree, by decide, by decide, by decide, n, found,
    (remove_eq_pruned circle ⟨numbered 20⟩).2.2 agree n found⟩

end Graph

end NodeScript
