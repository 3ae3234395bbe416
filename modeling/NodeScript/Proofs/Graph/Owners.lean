import Mathlib.Logic.Relation
import NodeScript.Proofs.Graph.Cascade
import NodeScript.Proofs.Graph.Histories

/-!
The function that execution reaches a node from. The search goes back from stack to stack, always along
the first of the edges that enter one, and ends where it comes to a function, to nothing, or to a node
that it has passed. So a function that it finds does reach the node. One that reaches the node by other
than first edges only is not found.
-/

namespace NodeScript

theorem NodeKind.flowsThrough_of_isStack {kind : NodeKind} (stack : kind.isStack = true)
    (d : PortDirection) (name : String) : kind.flowsThrough d name = true := by
  cases kind <;> first | rfl | cases stack

namespace Graph

open Relation

variable {g : Graph} {id id' f s t : NodeId} {n : Node} {visited : List NodeId}
  {result : Option NodeId} {steps : Nat}

/-! ### The search -/

/-- The search for the function, as it runs: it remembers the nodes that it has passed, and nothing but
its own course brings it to an end. -/
inductive TracesBack (g : Graph) : List NodeId → NodeId → Option NodeId → Prop
  | seen {visited : List NodeId} {id : NodeId} : id ∈ visited → TracesBack g visited id none
  | absent {visited : List NodeId} {id : NodeId} : id ∉ visited → g.node? id = none →
      TracesBack g visited id none
  | arrived {visited : List NodeId} {id : NodeId} : id ∉ visited → g.isFunction id = true →
      TracesBack g visited id (some id)
  | deadEnd {visited : List NodeId} {id : NodeId} {n : Node} : id ∉ visited →
      g.node? id = some n → g.isFunction id = false → g.previous? n = none →
      TracesBack g visited id none
  | onward {visited : List NodeId} {id id' : NodeId} {n : Node} {result : Option NodeId} :
      id ∉ visited → g.node? id = some n → g.isFunction id = false → g.previous? n = some id' →
      TracesBack g (id :: visited) id' result → TracesBack g visited id result

/-- The search goes back from one node to another. -/
def Back (g : Graph) (id id' : NodeId) : Prop :=
  ∃ n, g.node? id = some n ∧ g.isFunction id = false ∧ g.previous? n = some id'

theorem Back.unique : Relator.RightUnique g.Back := by
  rintro id a b ⟨n, found, -, previous⟩ ⟨n', found', -, previous'⟩
  obtain rfl := Option.some.inj (found.symm.trans found')
  exact Option.some.inj (previous.symm.trans previous')

theorem Back.not_function (back : g.Back id id') : g.isFunction id ≠ true := by
  obtain ⟨-, -, plain, -⟩ := back
  simp [plain]

/-- The search that goes round does not come to a function. -/
theorem not_function_of_round (round : TransGen g.Back id id) (way : ReflTransGen g.Back id f) :
    g.isFunction f ≠ true := by
  -- wherever it comes, it goes round there
  have there : TransGen g.Back f f := by
    induction way with
    | refl => exact round
    | tail _ back ih =>
      obtain ⟨next, first, rest⟩ := TransGen.head'_iff.mp ih
      obtain rfl := Back.unique back first
      exact TransGen.tail' rest back
  obtain ⟨_, back, _⟩ := TransGen.head'_iff.mp there
  exact back.not_function

/-- The search comes to a function exactly if going back does. -/
theorem TracesBack.result_iff (traces : TracesBack g visited id result)
    (passed : ∀ v ∈ visited, TransGen g.Back v id) :
    result = some f ↔ g.isFunction f = true ∧ ReflTransGen g.Back id f := by
  induction traces with
  | seen member =>
    refine ⟨nofun, fun ⟨function, way⟩ => absurd function ?_⟩
    exact not_function_of_round (passed _ member) way
  | @absent visited id _ missing =>
    refine ⟨nofun, fun ⟨function, way⟩ => ?_⟩
    obtain rfl | ⟨_, ⟨n, found, -⟩, -⟩ := way.cases_head
    · simp [isFunction, missing] at function
    · cases missing.symm.trans found
  | arrived _ here =>
    refine ⟨?_, fun ⟨function, way⟩ => ?_⟩
    · rintro ⟨⟩
      exact ⟨here, .refl⟩
    · obtain rfl | ⟨_, back, -⟩ := way.cases_head
      · rfl
      · exact absurd here back.not_function
  | deadEnd _ found plain ends =>
    refine ⟨nofun, fun ⟨function, way⟩ => ?_⟩
    obtain rfl | ⟨_, ⟨n', found', -, previous⟩, -⟩ := way.cases_head
    · cases plain.symm.trans function
    · obtain rfl := Option.some.inj (found.symm.trans found')
      cases ends.symm.trans previous
  | @onward visited id id' n result _ found plain previous _ ih =>
    have step : g.Back id id' := ⟨n, found, plain, previous⟩
    rw [ih (List.forall_mem_cons.mpr ⟨.single step, fun v member => (passed v member).tail step⟩)]
    refine and_congr_right fun function => ⟨fun way => way.head step, fun way => ?_⟩
    obtain rfl | ⟨next, first, rest⟩ := way.cases_head
    · cases plain.symm.trans function
    · rwa [Back.unique step first]

theorem ownerWithin_of_function (function : g.isFunction id = true) :
    g.ownerWithin (steps + 1) id = some id := by
  obtain ⟨n, found, here⟩ := Option.any_eq_true _ _ |>.mp function
  rw [ownerWithin, found]
  cases kind : n.kind <;> simp_all [NodeKind.function?]

theorem ownerWithin_of_plain (found : g.node? id = some n) (plain : g.isFunction id = false) :
    g.ownerWithin (steps + 1) id = (g.previous? n).bind (g.ownerWithin steps) := by
  rw [isFunction, found] at plain
  rw [ownerWithin, found]
  cases kind : n.kind <;> simp_all [NodeKind.function?]

/-- What the search finds in so many steps is a function that going back comes to. -/
theorem ownerWithin_sound (owner : g.ownerWithin steps id = some f) :
    g.isFunction f = true ∧ ReflTransGen g.Back id f := by
  induction steps generalizing id with
  | zero => cases owner
  | succ steps ih =>
    cases function : g.isFunction id with
    | true =>
      rw [ownerWithin_of_function function] at owner
      obtain rfl := Option.some.inj owner
      exact ⟨function, .refl⟩
    | false =>
      cases found : g.node? id with
      | none => simp [ownerWithin, found] at owner
      | some n =>
        rw [ownerWithin_of_plain found function, Option.bind_eq_some_iff] at owner
        obtain ⟨id', previous, later⟩ := owner
        obtain ⟨here, way⟩ := ih later
        exact ⟨here, way.head ⟨n, found, function, previous⟩⟩

/-- A search with steps left for all nodes that it has not passed runs to its end. -/
theorem ownerWithin_traces (single : visited.Nodup) (inside : visited ⊆ g.nodes.keys)
    (passed : ∀ v ∈ visited, TransGen g.Back v id) (enough : g.nodes.size < steps + visited.length) :
    TracesBack g visited id (g.ownerWithin steps id) := by
  induction steps generalizing visited id with
  | zero =>
    have bound : visited.length ≤ g.nodes.size := by
      rw [← OrderedMap.length_keys]
      exact (single.subperm inside).length_le
    omega
  | succ steps ih =>
    by_cases member : id ∈ visited
    · have lost : g.ownerWithin (steps + 1) id = none := by
        refine Option.eq_none_iff_forall_ne_some.mpr fun f owner => ?_
        obtain ⟨function, way⟩ := ownerWithin_sound owner
        exact not_function_of_round (passed id member) way function
      rw [lost]
      exact .seen member
    · cases function : g.isFunction id with
      | true =>
        rw [ownerWithin_of_function function]
        exact .arrived member function
      | false =>
        cases found : g.node? id with
        | none =>
          rw [ownerWithin, found]
          exact .absent member found
        | some n =>
          rw [ownerWithin_of_plain found function]
          cases previous : g.previous? n with
          | none => exact .deadEnd member found function previous
          | some id' =>
            have step : g.Back id id' := ⟨n, found, function, previous⟩
            refine .onward member found function previous (ih ?_ ?_ ?_ ?_)
            · exact List.nodup_cons.mpr ⟨member, single⟩
            · exact List.cons_subset.mpr ⟨OrderedMap.mem_keys_of_get? found, inside⟩
            · exact List.forall_mem_cons.mpr
                ⟨.single step, fun v member => (passed v member).tail step⟩
            · rw [List.length_cons]
              omega

theorem owningFunction?_traces (g : Graph) (node : NodeId) :
    TracesBack g [] node (g.owningFunction? node) :=
  ownerWithin_traces List.nodup_nil (List.nil_subset _) nofun (by simp)

/-- The search finds the function that going back comes to. -/
theorem owningFunction?_eq_some_iff :
    g.owningFunction? id = some f ↔ g.isFunction f = true ∧ ReflTransGen g.Back id f :=
  (owningFunction?_traces g id).result_iff nofun

/-! ### Execution -/

/-- The edges through which execution enters a stack, in the order of the graph. -/
def entrances (g : Graph) (t : NodeId) : List Edge :=
  match g.node? t with
  | some n => if n.kind.isStack then ((n.input? "In").map fun p => g.edgesTo p.id).getD [] else []
  | none => []

/-- Execution leaves its node through an edge. -/
def Leaves (g : Graph) (e : Edge) : Prop :=
  ∃ n p, g.node? e.output.node = some n ∧ p ∈ n.execOutputs ∧ p.id = e.output.port

/-- Execution goes from one stack into another: from the one itself or from a node that stands in it. -/
def LeadsInto (g : Graph) (s t : NodeId) : Prop :=
  ∃ e ∈ g.entrances t, g.Leaves e ∧ g.root e.output.node = s

/-- The first edge that enters a stack comes from another one. -/
def LeadsFirst (g : Graph) (s t : NodeId) : Prop :=
  ∃ e, (g.entrances t).head? = some e ∧ g.root e.output.node = s

theorem exists_of_mem_entrances {e : Edge} (member : e ∈ g.entrances t) :
    ∃ n p, g.node? t = some n ∧ n.kind.isStack = true ∧ n.input? "In" = some p ∧ e ∈ g.edgesTo p.id := by
  unfold entrances at member
  split at member
  · rename_i n found
    split at member
    · rename_i stack
      cases input : n.input? "In" with
      | none => simp [input] at member
      | some p => exact ⟨n, p, found, stack, input, by simpa [input] using member⟩
    · cases member
  · cases member

theorem previous?_of_stack (found : g.node? id = some n) (stack : n.kind.isStack = true) :
    g.previous? n = (g.entrances id).head?.map (·.output.node) := by
  rw [previous?, entrances, found]
  simp only [stack, if_true]
  cases n.input? "In" with
  | none => rfl
  | some p => cases enters : g.edgesTo p.id <;> simp [enters]

theorem previous?_of_single (single : n.kind.isStack = false) : g.previous? n = n.parent := by
  rw [previous?, single]
  rfl

theorem isFunction_of_single (found : g.node? id = some n) (single : n.kind.isStack = false) :
    g.isFunction id = false := by
  refine Bool.eq_false_iff.mpr fun function => ?_
  rw [isStack_of_isFunction found function] at single
  cases single

theorem Linked.root_of_isFunction (linked : g.Linked) (function : g.isFunction f = true) :
    g.root f = f := by
  obtain ⟨n, found, -⟩ := Option.any_eq_true _ _ |>.mp function
  have stack := isStack_of_isFunction found function
  exact root_of_free ((stackOf?_eq found).trans (linked.flat found stack))

/-- Going back comes out of the stack that a node stands in. -/
theorem Linked.back_root (linked : g.Linked) (id : NodeId) : ReflTransGen g.Back id (g.root id) := by
  cases stands : g.stackOf? id with
  | none => rw [root_of_free stands]
  | some s =>
    rw [root_of_stackOf? stands]
    obtain ⟨n, found, parent⟩ := exists_of_stackOf? stands
    have single : n.kind.isStack = false := by
      by_contra stack
      simp [linked.flat found (by simpa using stack)] at parent
    exact .single ⟨n, found, isFunction_of_single found single,
      (previous?_of_single single).trans parent⟩

/-- Going back from a node goes from stack to stack along first edges. -/
theorem Linked.leadsFirst_of_back (linked : g.Linked) (function : g.isFunction f = true)
    (way : ReflTransGen g.Back id f) : ReflTransGen g.LeadsFirst f (g.root id) := by
  induction way using ReflTransGen.head_induction_on with
  | refl => rw [linked.root_of_isFunction function]
  | @head a b back _ ih =>
    obtain ⟨n, found, -, previous⟩ := back
    cases stack : n.kind.isStack with
    | true =>
      rw [previous?_of_stack found stack, Option.map_eq_some_iff] at previous
      obtain ⟨e, first, rfl⟩ := previous
      rw [root_of_free ((stackOf?_eq found).trans (linked.flat found stack))]
      exact ih.tail ⟨e, first, rfl⟩
    | false =>
      rw [previous?_of_single stack] at previous
      have stands := (stackOf?_eq found).trans previous
      rw [root_of_stackOf? stands]
      rwa [root_of_free (linked.stackOf?_stack stands)] at ih

/-- Where first edges lead from a function to a stack, going back from the stack comes to a function,
which may be a later one. -/
theorem Linked.back_of_leadsFirst (linked : g.Linked) (function : g.isFunction f = true)
    (way : ReflTransGen g.LeadsFirst f t) :
    ∃ f', g.isFunction f' = true ∧ ReflTransGen g.Back t f' := by
  induction way with
  | refl => exact ⟨f, function, .refl⟩
  | @tail s t _ leads ih =>
    cases here : g.isFunction t with
    | true => exact ⟨t, here, .refl⟩
    | false =>
      obtain ⟨f', function', rest⟩ := ih
      obtain ⟨e, first, rfl⟩ := leads
      obtain ⟨n, -, found, stack, -⟩ := exists_of_mem_entrances (List.mem_of_head? first)
      have step : g.Back t e.output.node :=
        ⟨n, found, here, by rw [previous?_of_stack found stack, first]; rfl⟩
      exact ⟨f', function', (linked.back_root _).trans rest |>.head step⟩

section

variable (formed : g.WellFormed)
  (flows : ∀ {id n}, g.node? id = some n → n.kind.isStack = true → n.Flows)

include formed flows

/-- What enters a stack leaves an execution output. -/
theorem leaves_of_mem_entrances {e : Edge} (member : e ∈ g.entrances t) : g.Leaves e := by
  obtain ⟨n, p, found, stack, input, enters⟩ := exists_of_mem_entrances member
  obtain ⟨held, port⟩ := List.mem_filter.mp enters
  have own : p ∈ n.ports := Node.mem_ports.mpr (.inl (List.mem_of_find?_eq_some input))
  obtain ⟨k, held⟩ := exists_of_mem_edges held
  obtain ⟨o, q, source, target, fit, -⟩ := formed.joined held
  obtain ⟨m, foundM, facing, named⟩ := exists_of_portAt? target
  obtain ⟨m', foundM', output, named'⟩ := exists_of_portAt? source
  obtain ⟨-, rfl⟩ := formed.port_eq foundM found (Node.mem_ports_of_facing facing) own
    (named.trans (of_decide_eq_true port))
  have flow : q.kind = .execution :=
    (flows found stack q own).mpr (NodeKind.flowsThrough_of_isStack stack ..)
  have leaving : o.kind = .execution := by
    have both := ((Bool.and_eq_true _ _).mp fit).2
    rw [flow] at both
    simpa [PortKind.carriesValue] using both
  refine ⟨m', o, foundM', List.mem_filter.mpr ⟨output, ?_⟩, named'⟩
  simp [(formed.ported foundM').faces .output o output, leaving]

theorem leadsInto_of_leadsFirst (leads : g.LeadsFirst s t) : g.LeadsInto s t := by
  obtain ⟨e, first, root⟩ := leads
  have member := List.mem_of_head? first
  exact ⟨e, member, leaves_of_mem_entrances formed flows member, root⟩

end

theorem leadsInto_unique {s' : NodeId}
    (single : ∀ t ∈ g.nodes.keys, ∀ e ∈ g.entrances t, ∀ e' ∈ g.entrances t, e = e')
    (leads : g.LeadsInto s t) (leads' : g.LeadsInto s' t) : s = s' := by
  obtain ⟨e, member, -, rfl⟩ := leads
  obtain ⟨e', member', -, rfl⟩ := leads'
  obtain ⟨n, -, found, -⟩ := exists_of_mem_entrances member
  rw [single t (OrderedMap.mem_keys_of_get? found) e member e' member']

/-- The search for the function of a node comes to its end. A function that it finds is one from which
execution reaches the node. It finds none exactly if no function leads to the node along the edges that
come first at the stacks on the way. Where each of these stacks is entered from one other only, that is
if execution reaches the node from no function at all. -/
theorem owningFunction?_spec (g : Graph) (formed : g.WellFormed)
    (flows : ∀ {id n}, g.node? id = some n → n.kind.isStack = true → n.Flows) (node : NodeId) :
    TracesBack g [] node (g.owningFunction? node) ∧
    (∀ f, g.owningFunction? node = some f →
      g.isFunction f = true ∧ ReflTransGen g.LeadsInto f (g.root node)) ∧
    (g.owningFunction? node = none ↔
      ∀ f, g.isFunction f = true → ¬ ReflTransGen g.LeadsFirst f (g.root node)) ∧
    ((∀ s s' t, ReflTransGen g.LeadsInto t (g.root node) → g.LeadsInto s t → g.LeadsInto s' t →
        s = s') → g.owningFunction? node = none →
      ∀ f, g.isFunction f = true → ¬ ReflTransGen g.LeadsInto f (g.root node)) := by
  have first : g.owningFunction? node = none ↔
      ∀ f, g.isFunction f = true → ¬ ReflTransGen g.LeadsFirst f (g.root node) := by
    constructor
    · intro lost f function way
      obtain ⟨f', function', rest⟩ := formed.toLinked.back_of_leadsFirst function way
      have found := owningFunction?_eq_some_iff.mpr
        ⟨function', (formed.toLinked.back_root node).trans rest⟩
      cases lost.symm.trans found
    · intro apart
      refine Option.eq_none_iff_forall_ne_some.mpr fun f owner => ?_
      obtain ⟨function, way⟩ := owningFunction?_eq_some_iff.mp owner
      exact apart f function (formed.toLinked.leadsFirst_of_back function way)
  refine ⟨owningFunction?_traces g node, fun f owner => ?_, first, fun single lost f function way => ?_⟩
  · obtain ⟨function, way⟩ := owningFunction?_eq_some_iff.mp owner
    exact ⟨function, ReflTransGen.mono (fun _ _ => leadsInto_of_leadsFirst formed flows) _ _
      (formed.toLinked.leadsFirst_of_back function way)⟩
  · -- on the way to the node every edge is the only one, and so the first
    refine first.mp lost f function ?_
    clear function
    induction way using ReflTransGen.head_induction_on with
    | refl => exact .refl
    | @head s t leads rest ih =>
      obtain ⟨e, member, -⟩ := id leads
      obtain ⟨e₁, start⟩ :=
        Option.isSome_iff_exists.mp (List.isSome_head?.mpr (List.ne_nil_of_mem member))
      have leadsFirst : g.LeadsFirst (g.root e₁.output.node) t := ⟨e₁, start, rfl⟩
      obtain rfl := single _ _ t rest leads (leadsInto_of_leadsFirst formed flows leadsFirst)
      exact ih.head leadsFirst

/-- A function with a stack behind it, and two stacks one behind the other. -/
def strands : Workpiece :=
  let node (n : Nat) : NodeId := ⟨familyIdentity 0 n⟩
  (Workpiece.start "Strands" .standard (.ofFamily 0)).after <|
    [GraphEdit.spawn ⟨.function (.onEvent .start), Eq.refl true⟩ default,
      .spawn ⟨.stack, Eq.refl true⟩ default, .spawn ⟨.stack, Eq.refl true⟩ default,
      .spawn ⟨.stack, Eq.refl true⟩ default,
      .connectByName (node 0) "Out" (node 2) "In",
      .connectByName (node 5) "Out" (node 8) "In"].map fun edit =>
        (⟨TypeDatabase.empty.toOracle, ∅⟩, edit)

theorem owningFunction?_spec_strands :
    let g := strands.1
    let node (n : Nat) : NodeId := ⟨familyIdentity 0 n⟩
    g.WellFormed ∧ (∀ {id n}, g.node? id = some n → n.kind.isStack = true → n.Flows) ∧
      g.owningFunction? (node 2) = some (node 0) ∧ g.owningFunction? (node 8) = none ∧
      TracesBack g [] (node 2) (some (node 0)) ∧
      ReflTransGen g.LeadsInto (node 0) (g.root (node 2)) ∧
      (∀ s s' t, ReflTransGen g.LeadsInto t (g.root (node 8)) → g.LeadsInto s t →
        g.LeadsInto s' t → s = s') ∧
      ∀ f, g.isFunction f = true → ¬ ReflTransGen g.LeadsInto f (g.root (node 8)) := by
  intro g node
  have lasts : strands.2.next ≤ UInt64.size := by decide +kernel
  have tended : g.Tended strands.2 := (Workpiece.after_tends _ _).tended lasts
    (Workpiece.start_tended "Strands" .standard (.ofFamily 0))
  have flows : ∀ {id n}, g.node? id = some n → n.kind.isStack = true → n.Flows :=
    fun found _ => tended.flows found
  have owner : g.owningFunction? (node 2) = some (node 0) := by decide +kernel
  have lost : g.owningFunction? (node 8) = none := by decide +kernel
  have alone : ∀ t ∈ g.nodes.keys, ∀ e ∈ g.entrances t, ∀ e' ∈ g.entrances t, e = e' := by
    decide +kernel
  have single : ∀ s s' t, ReflTransGen g.LeadsInto t (g.root (node 8)) → g.LeadsInto s t →
      g.LeadsInto s' t → s = s' := fun _ _ _ _ => leadsInto_unique alone
  obtain ⟨traces, sound, -, -⟩ := owningFunction?_spec g tended.toWellFormed flows (node 2)
  obtain ⟨-, -, -, complete⟩ := owningFunction?_spec g tended.toWellFormed flows (node 8)
  exact ⟨tended.toWellFormed, flows, owner, lost, owner ▸ traces, (sound _ owner).2, single,
    complete single lost⟩

/-- A stack that is entered from a stack that nothing leads to before it is entered from a function. -/
def sidelined : Workpiece :=
  let node (n : Nat) : NodeId := ⟨familyIdentity 0 n⟩
  (Workpiece.start "Sidelined" .standard (.ofFamily 0)).after <|
    [GraphEdit.spawn ⟨.stack, Eq.refl true⟩ default,
      .spawn ⟨.function (.onEvent .start), Eq.refl true⟩ default,
      .spawn ⟨.stack, Eq.refl true⟩ default,
      .connectByName (node 0) "Out" (node 5) "In", .connectByName (node 3) "Out" (node 5) "In"].map
        fun edit =>
        (⟨TypeDatabase.empty.toOracle, ∅⟩, edit)

theorem owningFunction?_sidelined : ¬ ∀ g : Graph, g.WellFormed →
    (∀ {id n}, g.node? id = some n → n.kind.isStack = true → n.Flows) →
    ∀ node, g.owningFunction? node = none →
      ∀ f, g.isFunction f = true → ¬ ReflTransGen g.LeadsInto f (g.root node) := by
  intro complete
  have lasts : sidelined.2.next ≤ UInt64.size := by decide +kernel
  have tended : sidelined.1.Tended sidelined.2 := (Workpiece.after_tends _ _).tended lasts
    (Workpiece.start_tended "Sidelined" .standard (.ofFamily 0))
  have lost : sidelined.1.owningFunction? ⟨familyIdentity 0 5⟩ = none := by decide +kernel
  have function : sidelined.1.isFunction ⟨familyIdentity 0 3⟩ = true := by decide +kernel
  have itself : sidelined.1.root ⟨familyIdentity 0 5⟩ = ⟨familyIdentity 0 5⟩ := by decide +kernel
  have entered : (sidelined.1.entrances ⟨familyIdentity 0 5⟩).any
      (sidelined.1.root ·.output.node = ⟨familyIdentity 0 3⟩) = true := by decide +kernel
  generalize sidelined.1 = g at *
  have flows : ∀ {id n}, g.node? id = some n → n.kind.isStack = true → n.Flows :=
    fun found _ => tended.flows found
  obtain ⟨e, member, root⟩ := List.any_eq_true.mp entered
  have leads : g.LeadsInto ⟨familyIdentity 0 3⟩ (g.root ⟨familyIdentity 0 5⟩) := by
    rw [itself]
    exact ⟨e, member, leaves_of_mem_entrances tended.toWellFormed flows member,
      of_decide_eq_true root⟩
  exact complete g tended.toWellFormed flows _ lost _ function (.single leads)

end Graph

end NodeScript
