import Mathlib
import NodeScript.Proofs.Graph.Ports
import NodeScript.Proofs.Graph.Supply

/-!
Ports that are put in place anew. Every former port either is succeeded by a port of its identity,
name and direction, or it has vanished; all other identities are taken from the supply. The inputs
for values get their constants in order. A port may come to be of another kind, but whether execution
goes through it stays as it was, for the kind of the node settles that by direction and name.
-/

namespace NodeScript

theorem perm_takeOut {α : Type} {items : List α} {i : Nat} {x : α} (found : items[i]? = some x) :
    items.Perm (x :: takeOut items i) := by
  obtain ⟨bound, atI⟩ := List.getElem?_eq_some_iff.mp found
  rcases List.eq_nil_or_concat' items with rfl | ⟨front, last, rfl⟩
  · exact absurd bound (Nat.not_lt_zero i)
  · have taken : takeOut (front ++ [last]) i = ((front ++ [last]).set i last).dropLast := by
      simp [takeOut]
    rw [taken]
    rcases Nat.lt_or_ge i front.length with inside | behind
    · have atFront : front[i] = x := by rw [← atI, List.getElem_append_left inside]
      have split : front = front.take i ++ x :: front.drop (i + 1) := by
        rw [← atFront, List.getElem_cons_drop, List.take_append_drop]
      rw [List.set_append_left _ _ inside, List.dropLast_concat, List.set_eq_take_append_cons_drop,
        if_pos inside]
      calc
        front ++ [last] = front.take i ++ x :: front.drop (i + 1) ++ [last] := by rw [← split]
        List.Perm _ (last :: (front.take i ++ x :: front.drop (i + 1))) := List.perm_append_singleton ..
        List.Perm _ (last :: x :: (front.take i ++ front.drop (i + 1))) :=
          List.Perm.cons _ List.perm_middle
        List.Perm _ (x :: last :: (front.take i ++ front.drop (i + 1))) := List.Perm.swap ..
        List.Perm _ (x :: (front.take i ++ last :: front.drop (i + 1))) :=
          List.Perm.cons _ List.perm_middle.symm
    · have atEnd : i = front.length := by simp at bound; omega
      subst atEnd
      have atLast : last = x := by simpa using atI
      rw [List.set_append_right _ _ (Nat.le_refl _), Nat.sub_self, List.set_cons_zero,
        List.dropLast_concat, atLast]
      exact List.perm_append_singleton ..

section Realizing

variable {node : NodeId} {spec : PortSpec} {specs : List PortSpec} {former ports vanished : List Port}
  {p q : Port} {supply supply' : IdSupply}

/-- A former port and a later one that has its identity, name and direction. -/
structure Port.Succeeds (p q : Port) : Prop where
  id : p.id = q.id
  name : p.name = q.name
  direction : p.direction = q.direction

/-- A specification is realized by a former port that is succeeded, or by a new one. -/
theorem realize_cases (node : NodeId) (spec : PortSpec) (former : List Port) (supply : IdSupply) :
    (∃ q rest, former.Perm (q :: rest) ∧ q.name = spec.name ∧ q.direction = spec.direction ∧
      spec.realize node former supply =
        ({ q with kind := spec.kind, type := spec.type }, rest, supply)) ∨
    spec.realize node former supply =
      (spec.toPort ⟨supply.fresh.1⟩ node, former, supply.fresh.2) := by
  unfold PortSpec.realize
  split
  · rename_i i place
    obtain ⟨bound, fits, -⟩ := List.findIdx?_eq_some_iff_getElem.mp place
    have found : former[i]? = some former[i] := List.getElem?_eq_getElem bound
    simp only [Bool.and_eq_true, decide_eq_true_eq] at fits
    refine Or.inl ⟨former[i], takeOut former i, perm_takeOut found, fits.1, fits.2, ?_⟩
    rw [found]
  · exact Or.inr rfl

/-- What is known of ports that have been put in place: they are those that were specified, they
belong to the node, the identities are those of former ports and new ones, and every former port is
succeeded by one of them or has vanished. -/
structure Realized (node : NodeId) (specs : List PortSpec) (former ports vanished : List Port)
    (supply supply' : IdSupply) : Prop where
  shapes : ports.map Port.shape = specs.map PortSpec.shape
  owned : (∀ q ∈ former, q.node = node) → ∀ p ∈ ports, p.node = node
  identities : ∃ numbers : List Nat,
    (ports.map (·.id) ++ vanished.map (·.id)).Perm
      (former.map (·.id) ++ numbers.map fun n => ⟨familyIdentity supply.family n⟩) ∧
    numbers.Nodup ∧ ∀ n ∈ numbers, supply.next ≤ n ∧ n < supply'.next
  succession : ∀ q ∈ former, q ∈ vanished ∨ ∃ p ∈ ports, p.Succeeds q

namespace Realized

/-- A specification is realized by a former port, which is succeeded. -/
theorem reuse {rest : List Port} (perm : former.Perm (q :: rest)) (name : q.name = spec.name)
    (direction : q.direction = spec.direction)
    (realized : Realized node specs rest ports vanished supply supply') :
    Realized node (spec :: specs) former ({ q with kind := spec.kind, type := spec.type } :: ports)
      vanished supply supply' := by
  obtain ⟨shapes, owned, ⟨numbers, identities, nodup, range⟩, succession⟩ := realized
  refine ⟨?_, ?_, ⟨numbers, ?_, nodup, range⟩, ?_⟩
  · rw [List.map_cons, List.map_cons, shapes]
    simp [Port.shape, PortSpec.shape, name, direction]
  · intro belong
    have belong : ∀ x ∈ q :: rest, x.node = node := fun x member =>
      belong x (perm.mem_iff.mpr member)
    exact List.forall_mem_cons.mpr ⟨belong q (.head _),
      owned fun x member => belong x (.tail _ member)⟩
  · rw [List.map_cons, List.cons_append]
    have former' := (perm.map (·.id)).append_right
      (numbers.map fun n => (⟨familyIdentity supply.family n⟩ : PortId))
    exact (identities.cons q.id).trans former'.symm
  · intro x member
    rcases List.mem_cons.mp (perm.mem_iff.mp member) with rfl | later
    · exact .inr ⟨_, .head _, rfl, rfl, rfl⟩
    · refine (succession x later).imp_right ?_
      rintro ⟨p, inside, succeeds⟩
      exact ⟨p, .tail _ inside, succeeds⟩

/-- A specification is realized by a new port, which takes an identity from the supply. -/
theorem make (realized : Realized node specs former ports vanished supply.fresh.2 supply')
    (extended : supply.fresh.2.Extends supply') :
    Realized node (spec :: specs) former (spec.toPort ⟨supply.fresh.1⟩ node :: ports) vanished
      supply supply' := by
  obtain ⟨shapes, owned, ⟨numbers, identities, nodup, range⟩, succession⟩ := realized
  refine ⟨?_, ?_, ⟨supply.next :: numbers, ?_, ?_, ?_⟩, ?_⟩
  · rw [List.map_cons, List.map_cons, shapes]
    rfl
  · exact fun belong => List.forall_mem_cons.mpr ⟨rfl, owned belong⟩
  · rw [List.map_cons, List.map_cons, List.cons_append]
    exact (identities.cons _).trans List.perm_middle.symm
  · refine List.nodup_cons.mpr ⟨fun again => ?_, nodup⟩
    exact absurd (range _ again).1 (Nat.not_le.mpr (Nat.lt_succ_self _))
  · refine List.forall_mem_cons.mpr ⟨⟨Nat.le_refl _, ?_⟩, fun n member => ?_⟩
    · exact Nat.lt_of_lt_of_le (Nat.lt_succ_self _) extended.next
    · exact ⟨Nat.le_of_succ_le (range n member).1, (range n member).2⟩
  · intro x member
    refine (succession x member).imp_right ?_
    rintro ⟨p, inside, succeeds⟩
    exact ⟨p, .tail _ inside, succeeds⟩

end Realized

theorem realizePorts_realized (node : NodeId) (specs : List PortSpec) (former : List Port)
    (supply : IdSupply) :
    Realized node specs former (realizePorts node specs former supply).1
      (realizePorts node specs former supply).2.1 supply
      (realizePorts node specs former supply).2.2 := by
  induction specs generalizing former supply with
  | nil =>
    exact ⟨rfl, fun _ => by simp [realizePorts], ⟨[], by simp [realizePorts], by simp, by simp⟩,
      fun q member => .inl member⟩
  | cons spec specs ih =>
    rcases realize_cases node spec former supply with
      ⟨q, rest, perm, name, direction, result⟩ | result
    · simp only [realizePorts, result]
      exact .reuse perm name direction (ih rest supply)
    · simp only [realizePorts, result]
      exact .make (ih former supply.fresh.2) (IdSupply.realizePorts_extends node specs former _)

namespace Realized

variable (realized : Realized node specs former ports vanished supply supply')

include realized

theorem origin (member : p ∈ ports) :
    (∃ q ∈ former, q.id = p.id) ∨ supply.Taken supply' p.id.uuid := by
  obtain ⟨numbers, identities, -, range⟩ := realized.identities
  have inside : p.id ∈ ports.map (·.id) ++ vanished.map (·.id) :=
    List.mem_append_left _ (List.mem_map_of_mem member)
  rcases List.mem_append.mp (identities.mem_iff.mp inside) with old | new
  · exact Or.inl (List.mem_map.mp old)
  · obtain ⟨n, counted, same⟩ := List.mem_map.mp new
    exact Or.inr ⟨n, (range n counted).1, (range n counted).2, by rw [← same]⟩

/-- Ports keep different identities as long as the supply has none of the former ones to give. -/
theorem nodup (lasts : supply'.next ≤ UInt64.size) (single : (former.map (·.id)).Nodup)
    (unused : ∀ q ∈ former, ¬ supply.Holds q.id.uuid) :
    (ports.map (·.id) ++ vanished.map (·.id)).Nodup := by
  obtain ⟨numbers, identities, distinct, range⟩ := realized.identities
  refine identities.nodup_iff.mpr (List.nodup_append.mpr ⟨single, ?_, ?_⟩)
  · refine List.Nodup.map_on (fun m memberM n memberN same => ?_) distinct
    exact familyIdentity_inj (Nat.lt_of_lt_of_le (range m memberM).2 lasts)
      (Nat.lt_of_lt_of_le (range n memberN).2 lasts) (congrArg PortId.uuid same)
  · rintro a old b new rfl
    obtain ⟨q, inside, rfl⟩ := List.mem_map.mp old
    obtain ⟨n, counted, same⟩ := List.mem_map.mp new
    exact unused q inside ⟨n, (range n counted).1, Nat.lt_of_lt_of_le (range n counted).2 lasts,
      congrArg PortId.uuid same.symm⟩

theorem nodup_names (single : duplicatePort? [] specs = none) (direction : PortDirection) :
    ((ports.filter (·.direction = direction)).map (·.name)).Nodup := by
  have labels : ports.map (fun p => (p.direction, p.name)) =
      specs.map fun p => (p.direction, p.name) := by
    simpa [Function.comp_def, Port.shape, PortSpec.shape] using
      congrArg (List.map fun shape : PortShape => (shape.2.1, shape.1)) realized.shapes
  have nodup := List.pairwise_map.mp (labels ▸ (duplicatePort?_eq_none single).2)
  refine List.pairwise_map.mpr ((nodup.filter _).imp_of_mem fun {p q} memberP memberQ differ same => ?_)
  have faceP : p.direction = direction := by simpa using (List.mem_filter.mp memberP).2
  have faceQ : q.direction = direction := by simpa using (List.mem_filter.mp memberQ).2
  exact differ (by rw [faceP, faceQ, same])

end Realized

end Realizing

theorem keys_redefineConstants (oracle : TypeOracle) {inputs : List Port}
    (former : OrderedMap PortId Constant) {made : OrderedMap PortId Constant}
    (single : (made.keys ++ inputs.map (·.id)).Nodup) :
    (redefineConstants oracle inputs former made).keys = made.keys ++ inputs.map (·.id) := by
  induction inputs generalizing former made with
  | nil => simp [redefineConstants]
  | cons p rest ih =>
    have absent : p.id ∉ made.keys := by
      intro present
      exact (List.nodup_append.mp single).2.2 _ present _ (by simp) rfl
    have written : ∀ value, (made.insert p.id value).keys = made.keys ++ [p.id] := fun value => by
      rw [OrderedMap.keys_insert, if_neg absent]
    have next : ∀ value, ((made.insert p.id value).keys ++ rest.map (·.id)).Nodup := by
      intro value
      rw [written, List.append_assoc]
      simpa using single
    rw [redefineConstants, ih _ (next _), written, List.append_assoc]
    rfl

/-- Whether execution goes through a port of a node, told from what never changes of either. -/
def NodeKind.flowsThrough : NodeKind → PortDirection → String → Bool
  | .stack, _, _ | .loopStack, _, _ | .function _, _, _ => true
  | .branch, .output, _ | .select _, .output, _ | .repeated, .output, _ => true
  | .forEach, .output, name => name = "Body"
  | _, _, _ => false

/-- Whether execution goes through a port that a kind declares is settled by direction and name. -/
def NodeKind.Declares (kind : NodeKind) (p : PortSpec) : Prop :=
  p.kind = .execution ↔ kind.flowsThrough p.direction p.name = true

instance (kind : NodeKind) (p : PortSpec) : Decidable (kind.Declares p) :=
  inferInstanceAs (Decidable (_ ↔ _))

theorem callPorts_declares (decl : CallDecl) (m : MethodSignature)
    (typeArguments : OrderedMap String TypeHandle) :
    ∀ p ∈ callPorts m typeArguments, (NodeKind.call decl).Declares p := by
  intro p member
  have value : p.kind ≠ .execution := by
    simp only [callPorts, List.mem_append, List.mem_map] at member
    rcases member with (receiver | ⟨_, -, rfl⟩) | result
    · split at receiver
      · cases receiver
      · obtain rfl := List.mem_singleton.mp receiver
        simp [PortSpec.instanceInput]
    · simp [PortSpec.dataInput]
    · split at result
      · cases result
      · obtain rfl := List.mem_singleton.mp result
        simp [PortSpec.dataOutput]
  simp [NodeKind.Declares, NodeKind.flowsThrough, value]

theorem NodeKind.declares {kind : NodeKind} {env : DefinitionEnv}
    {vars : OrderedMap VariableId VariableDecl} {returnType : Option TypeHandle}
    {specs : List PortSpec} (builtIn : kind.isBuiltIn = true)
    (declared : kind.declaredPorts env vars returnType = .ok specs) :
    ∀ p ∈ specs, kind.Declares p := by
  cases kind with
  | custom => simp [isBuiltIn] at builtIn
  | stack | loopStack | this | branch | repeated | forEach =>
    obtain rfl := Except.ok.inj declared
    decide
  | function | constant | binary | unary =>
    obtain rfl := Except.ok.inj declared
    simp [Declares, flowsThrough, PortSpec.execOutput, PortSpec.dataInput, PortSpec.dataOutput]
  | select cases =>
    obtain rfl := Except.ok.inj declared
    simp only [List.cons_append, List.forall_mem_cons, List.forall_mem_append, List.forall_mem_map]
    simp [Declares, flowsThrough, PortSpec.execOutput, PortSpec.dataInput]
  | getVariable | setVariable =>
    simp only [declaredPorts] at declared
    split at declared
    · obtain rfl := Except.ok.inj declared
      simp [Declares, flowsThrough, PortSpec.dataOutput, PortSpec.dataInput]
    · cases declared
  | call decl =>
    simp only [declaredPorts] at declared
    split at declared
    · obtain rfl := Except.ok.inj declared
      exact callPorts_declares decl _ _
    · cases declared
  | leave =>
    simp only [declaredPorts] at declared
    split at declared
    · obtain rfl := Except.ok.inj declared
      split <;> simp [Declares, flowsThrough, PortSpec.dataInput]
    · obtain rfl := Except.ok.inj declared
      exact List.forall_mem_nil _

/-- Execution goes through those ports that the kind of the node lets it through. -/
theorem Realized.flows {node : NodeId} {kind : NodeKind} {specs : List PortSpec}
    {former ports vanished : List Port} {supply supply' : IdSupply} {env : DefinitionEnv}
    {vars : OrderedMap VariableId VariableDecl} {returnType : Option TypeHandle}
    (realized : Realized node specs former ports vanished supply supply')
    (builtIn : kind.isBuiltIn = true)
    (declared : kind.declaredPorts env vars returnType = .ok specs) :
    ∀ p ∈ ports, p.kind = .execution ↔ kind.flowsThrough p.direction p.name = true := by
  intro p member
  have shape : p.shape ∈ specs.map PortSpec.shape :=
    realized.shapes ▸ List.mem_map_of_mem member
  obtain ⟨spec, inside, same⟩ := List.mem_map.mp shape
  simp only [Port.shape, PortSpec.shape, Prod.mk.injEq] at same
  obtain ⟨name, direction, kind'⟩ := same
  rw [← name, ← direction, ← kind']
  exact kind.declares builtIn declared spec inside

end NodeScript
