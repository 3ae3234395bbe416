import NodeScript.Proofs.Graph.Exactness

/-!
Values that were stored in inputs. A value lasts through whatever edits for as long as its input is in
place with one type, the value is one that an input of this type keeps, and no other value is stored
there. Every edit either leaves the ports and values of a node alone or defines its ports anew, and
then an input that is in place is given its former value back.
-/

namespace NodeScript

/-- Inputs of a type keep a value: it is of that type, it is the default one, or nothing is known of
the type. -/
def Constant.Fits (oracle : TypeOracle) (type : TypeHandle) (value : Constant) : Prop :=
  value.type = type ∨ value.equals (oracle.defaultConstant type) = true ∨ type = .unknown

instance (oracle : TypeOracle) (type : TypeHandle) (value : Constant) :
    Decidable (value.Fits oracle type) :=
  inferInstanceAs (Decidable (_ ∨ _))

theorem keptConstant_of_fits {oracle : TypeOracle} {p : Port} {value : Constant}
    (fits : value.Fits oracle p.type) : keptConstant oracle p (some value) = value := by
  refine if_pos ?_
  rcases fits with typed | default | unknown
  · simp [typed]
  · simp [default]
  · simp [unknown]

/-- The input of a name that takes values. -/
def Graph.valueInput? (g : Graph) (id : NodeId) (input : String) : Option Port := do
  (← g.node? id).dataInputs.find? (·.name = input)

/-- The value that is stored in an input. -/
def Graph.storedValue? (g : Graph) (id : NodeId) (input : String) : Option Constant := do
  (← g.node? id).constants.get? (← g.valueInput? id input).id

/-- What a node has of ports and values. -/
def Node.holdings (n : Node) : NodeId × List Port × List Port × OrderedMap PortId Constant :=
  (n.id, n.inputs, n.outputs, n.constants)

namespace Node

variable {n m : Node}

theorem Ported.of_holdings (same : m.holdings = n.holdings) (ported : n.Ported) : m.Ported := by
  obtain ⟨id, rest⟩ := Prod.mk.inj same
  obtain ⟨inputs, rest⟩ := Prod.mk.inj rest
  obtain ⟨outputs, constants⟩ := Prod.mk.inj rest
  have ports : m.ports = n.ports := by rw [Node.ports, inputs, outputs, Node.ports]
  have facing : ∀ d, m.facing d = n.facing d := by
    intro d
    cases d with
    | input => exact inputs
    | output => exact outputs
  constructor
  · rw [ports, id]
    exact ported.owned
  · exact fun d => facing d ▸ ported.faces d
  · exact fun d => facing d ▸ ported.names d
  · rw [ports]
    exact ported.identities
  · rw [constants, dataInputs, inputs]
    exact ported.constants

end Node

namespace Graph

variable {g g' g'' : Graph} {id k : NodeId} {n : Node} {env : DefinitionEnv} {supply supply' : IdSupply}
  {input : String} {type : TypeHandle} {value : Constant}

/-- A node that is there after an edit has the ports and values that it had before. -/
def Untouched (id : NodeId) (g g' : Graph) : Prop :=
  ∀ n', g'.node? id = some n' → ∃ n, g.node? id = some n ∧ n'.holdings = n.holdings

namespace Untouched

theorem of_eq (same : g'.node? id = g.node? id) : Untouched id g g' :=
  fun n' found => ⟨n', same ▸ found, rfl⟩

theorem refl (id : NodeId) (g : Graph) : Untouched id g g := .of_eq rfl

theorem trans (first : Untouched id g g') (second : Untouched id g' g'') : Untouched id g g'' := by
  intro n'' found
  obtain ⟨n', found', same'⟩ := second n'' found
  obtain ⟨n, found, same⟩ := first n' found'
  exact ⟨n, found, same'.trans same⟩

theorem modify {change : Node → Node} (kept : ∀ n, (change n).holdings = n.holdings) :
    Untouched id g (g.modifyNode k change) := by
  intro n' found
  rw [node?_modifyNode] at found
  split at found
  · rename_i here
    obtain ⟨n, before, rfl⟩ := Option.map_eq_some_iff.mp found
    exact ⟨n, here ▸ before, kept n⟩
  · exact ⟨n', found, rfl⟩

theorem foldl {α : Type} {step : Graph → α → Graph} (each : ∀ g x, Untouched id g (step g x))
    (items : List α) (g : Graph) : Untouched id g (items.foldl step g) := by
  induction items generalizing g with
  | nil => exact .refl id g
  | cons x rest ih => exact (each g x).trans (ih (step g x))

theorem forget (g : Graph) (n : Node) (gone : NodeId) : Untouched id g (g.forget n gone) := by
  intro n' found
  rw [node?_forget] at found
  split at found
  · obtain ⟨m, before, rfl⟩ := Option.map_eq_some_iff.mp found
    exact ⟨m, before, rfl⟩
  · exact ⟨n', found, rfl⟩

theorem removeWithin (depth : Nat) (g : Graph) (gone : NodeId) :
    Untouched id g (Graph.removeWithin depth g gone) := by
  induction depth generalizing g gone with
  | zero => exact .refl id g
  | succ depth ih =>
    rw [Graph.removeWithin]
    split
    · exact .refl id g
    · rename_i n found
      have erased : Untouched id g { g with nodes := g.nodes.erase gone } := by
        intro n' left
        have left : (g.nodes.erase gone).get? id = some n' := left
        rw [OrderedMap.get?_erase] at left
        split at left
        · cases left
        · exact ⟨n', left, rfl⟩
      exact (erased.trans (.foldl ih n.children _)).trans (.forget _ n gone)

theorem remove (g : Graph) (gone : NodeId) : Untouched id g (g.remove gone).2 := .removeWithin _ g gone

theorem removeVariable (g : Graph) (gone : VariableId) :
    Untouched id g (g.removeVariable gone).2 := by
  unfold Graph.removeVariable
  split
  · exact .refl id g
  · have without : Untouched id g { g with vars := g.vars.erase gone } := .of_eq rfl
    exact without.trans (.foldl (fun g user => .remove g user) _ _)

theorem defineNode (run : g.defineNode env k supply = .ok (g', supply')) (other : id ≠ k) :
    Untouched id g g' :=
  .of_eq ((defineNode_spec run).2.1.others id other)

theorem addNode (other : id ≠ n.id) : Untouched id g (g.addNode n) :=
  .of_eq (by rw [node?_addNode, if_neg other])

/-- A new node comes under an identity that is taken from the supply. -/
theorem spawn (g : Graph) (env : DefinitionEnv) (kind : NodeKind) (position : Position)
    (other : supply.fresh.2.Extends (g.spawn env kind position supply).2.2 →
      id ≠ ⟨supply.fresh.1⟩) : Untouched id g (g.spawn env kind position supply).2.1 := by
  unfold Graph.spawn at other ⊢
  split at other
  · rename_i allowed
    rw [if_pos allowed]
    dsimp only at other ⊢
    split at other
    · rename_i defined
      have apart := other (defineNode_spec defined).1
      exact (addNode (n := { Node.new ⟨supply.fresh.1⟩ kind with position }) apart).trans
        (.defineNode defined apart)
    · have apart := other (.refl _)
      exact (addNode (n := { Node.new ⟨supply.fresh.1⟩ kind with position }) apart).trans
        (.of_eq (OrderedMap.get?_erase.trans (if_neg apart)))
  · rename_i refused
    rw [if_neg refused]
    exact .refl id g

theorem push (g : Graph) (env : DefinitionEnv) (stack : NodeId) (index : Option Nat) (kind : NodeKind)
    (other : supply.fresh.2.Extends (g.push env stack index kind supply).2.2 →
      id ≠ ⟨supply.fresh.1⟩) : Untouched id g (g.push env stack index kind supply).2.1 := by
  obtain ⟨e, refused⟩ | ⟨holder, added, -, -, -, made, pushed⟩ :=
    push_cases g env stack index kind supply
  · rw [refused]
    exact .refl id g
  · have stacked : id ≠ ⟨supply.fresh.1⟩ → Untouched id g added := by
      intro apart
      rw [made]
      exact (addNode (n := { Node.new ⟨supply.fresh.1⟩ kind with parent := some stack }) apart).trans
        (.modify fun _ => rfl)
    rw [pushed] at other ⊢
    split at other
    · rename_i defined
      have apart := other (defineNode_spec defined).1
      exact (stacked apart).trans (.defineNode defined apart)
    · have apart := other (.refl _)
      exact (stacked apart).trans (.remove added _)

theorem connect {fromNode toNode : NodeId} {fromPort toPort : PortId} {edge : EdgeId}
    (run : g.connect fromNode fromPort toNode toPort supply = .ok (edge, g', supply')) :
    Untouched id g g' := by
  obtain ⟨-, -, e, -, nodes, -⟩ := connect_spec run
  exact .of_eq (nodes id)

theorem connectByName {fromNode toNode : NodeId} {output input : String} {edge : EdgeId}
    (run : g.connectByName fromNode output toNode input supply = .ok (edge, g', supply')) :
    Untouched id g g' := by
  obtain ⟨-, -, e, -, nodes, -⟩ := connectByName_spec run
  exact .of_eq (nodes id)

end Untouched

/-! ### What keeps a value -/

/-- An input takes values of a type. -/
def HasInput (g : Graph) (id : NodeId) (input : String) (type : TypeHandle) : Prop :=
  (g.valueInput? id input).map (·.type) = some type

instance : Decidable (g.HasInput id input type) := inferInstanceAs (Decidable (_ = _))

theorem HasInput.exists_input (placed : g.HasInput id input type) :
    ∃ n, g.node? id = some n ∧ ∃ p ∈ n.dataInputs, p.name = input ∧ p.type = type := by
  obtain ⟨p, seen, typed⟩ := Option.map_eq_some_iff.mp placed
  obtain ⟨n, found, seen⟩ := Option.bind_eq_some_iff.mp seen
  exact ⟨n, found, p, List.mem_of_find?_eq_some seen, by simpa using List.find?_some seen, typed⟩

end Graph

/-- A node stores a value in an input of a type, and the supply has neither the identity of the node
nor that of a port of it to give. -/
structure Node.Stores (n : Node) (supply : IdSupply) (input : String) (type : TypeHandle)
    (value : Constant) : Prop where
  ported : n.Ported
  apart : ¬ supply.Holds n.id.uuid
  unused : ∀ q ∈ n.ports, ¬ supply.Holds q.id.uuid
  stored : ∃ p ∈ n.dataInputs, p.name = input ∧ p.type = type ∧ n.constants.get? p.id = some value

/-- A graph stores a value in an input of a node. -/
def Graph.Stores (g : Graph) (supply : IdSupply) (id : NodeId) (input : String) (type : TypeHandle)
    (value : Constant) : Prop :=
  ∃ n, g.node? id = some n ∧ n.id = id ∧ n.Stores supply input type value

namespace Node

variable {n m : Node} {p q : Port} {supply supply' : IdSupply} {input : String} {type : TypeHandle}
  {value other : Constant}

theorem mem_ports_of_dataInputs (member : p ∈ n.dataInputs) : p ∈ n.ports :=
  mem_ports.mpr (Or.inl (List.mem_filter.mp member).1)

/-- Inputs are told apart by their identities, and so are they by their names. -/
theorem Ported.find?_dataInputs (ported : n.Ported) (member : p ∈ n.dataInputs) :
    n.dataInputs.find? (·.name = p.name) = some p :=
  (find?_key_iff ((ported.names .input).sublist (List.filter_sublist.map _))).mpr ⟨member, rfl⟩

theorem Stores.of_holdings (same : m.holdings = n.holdings) (extended : supply.Extends supply')
    (stores : n.Stores supply input type value) : m.Stores supply' input type value := by
  have ported := stores.ported.of_holdings same
  obtain ⟨id, rest⟩ := Prod.mk.inj same
  obtain ⟨inputs, rest⟩ := Prod.mk.inj rest
  obtain ⟨outputs, constants⟩ := Prod.mk.inj rest
  have ports : m.ports = n.ports := by rw [Node.ports, inputs, outputs, Node.ports]
  have data : m.dataInputs = n.dataInputs := by rw [dataInputs, inputs, dataInputs]
  refine ⟨ported, ?_, ?_, ?_⟩
  · exact id ▸ fun held => stores.apart (extended.holds held)
  · exact ports ▸ fun q member held => stores.unused q member (extended.holds held)
  · rw [data, constants]
    exact stores.stored

/-- Storing another value in an input leaves the others what they were. -/
theorem Stores.insert (stores : n.Stores supply input type value) (seen : q ∈ n.dataInputs)
    (apart : q.name ≠ input) :
    ({ n with constants := n.constants.insert q.id other } : Node).Stores supply input type value := by
  obtain ⟨p, member, name, typed, held⟩ := stores.stored
  refine ⟨stores.ported.setConstant seen, stores.apart, stores.unused, p, member, name, typed, ?_⟩
  have unlike : p.id ≠ q.id := by
    intro same
    have port := List.inj_on_of_nodup_map stores.ported.identities (mem_ports_of_dataInputs member)
      (mem_ports_of_dataInputs seen) same
    exact apart (port ▸ name)
  exact (OrderedMap.get?_insert_of_ne unlike).trans held

end Node

namespace Graph

variable {g g' bound : Graph} {id k : NodeId} {n n' : Node} {env : DefinitionEnv}
  {supply supply' : IdSupply} {input : String} {type : TypeHandle} {value : Constant}

theorem Stores.storedValue? (stores : g.Stores supply id input type value) :
    g.storedValue? id input = some value := by
  obtain ⟨n, found, -, stores⟩ := stores
  obtain ⟨p, member, rfl, -, held⟩ := stores.stored
  have seen : g.valueInput? id p.name = some p := by
    simp only [valueInput?, found, Option.bind_eq_bind, Option.bind_some]
    exact stores.ported.find?_dataInputs member
  simp only [Graph.storedValue?, found, seen, Option.bind_eq_bind, Option.bind_some]
  exact held

theorem Stores.untouched (stores : g.Stores supply id input type value) (extended : supply.Extends supply')
    (untouched : Untouched id g g') (found : g'.node? id = some n') :
    g'.Stores supply' id input type value := by
  obtain ⟨n, before, filed, stores⟩ := stores
  obtain ⟨m, before', same⟩ := untouched n' found
  obtain rfl := Option.some.inj (before.symm.trans before')
  exact ⟨n', found, (Prod.mk.inj same).1.trans filed, stores.of_holdings same extended⟩

/-- A node whose ports are defined anew gives an input that is in place its value back. -/
theorem Stores.defineNode (stores : g.Stores supply id input type value)
    (run : g.defineNode env k supply = .ok (g', supply')) (lasts : supply'.next ≤ UInt64.size)
    (placed : g'.HasInput id input type) (fits : value.Fits env.oracle type) :
    g'.Stores supply' id input type value := by
  obtain ⟨n', found', p', member', name', typed'⟩ := placed.exists_input
  have extended := (defineNode_spec run).1
  by_cases here : id = k
  · subst here
    obtain ⟨n, found, filed, ported, apart, unused, p, member, name, -, held⟩ := stores
    obtain ⟨specs, defined, made, rfl⟩ := defineNode_made found run
    have single := (NodeKind.definePorts_ok defined).2
    have realized := realizePorts_realized id specs n.ports supply
    obtain ⟨kept, fresh, -⟩ := realizePorts_succession id supply ported.nodup_labels
      (duplicatePort?_eq_none single).2
    generalize realizePorts id specs n.ports supply = result at *
    obtain ⟨ports, vanished, supply'⟩ := result
    obtain ⟨ported', perm⟩ := Realized.ported env.oracle ported (filed.symm ▸ realized) single lasts
      unused
    have now : g'.node? id = some (n.withPorts env.oracle ports) := by
      rw [made]
      exact OrderedMap.get?_insert_self
    obtain rfl := Option.some.inj (now.symm.trans found')
    refine ⟨_, now, filed, ported', fun held => apart (extended.holds held), fun q inside held => ?_,
      p', member', name', typed', ?_⟩
    · have listed := perm.mem_iff.mp inside
      by_cases former : ∃ r ∈ n.ports, r.label = q.label
      · obtain ⟨r, old, label⟩ := former
        exact unused r old (kept q listed r old label ▸ extended.holds held)
      · have taken := fresh q listed fun r old label => former ⟨r, old, label⟩
        exact taken.not_holds extended lasts held
    · -- the input is the former one of its name
      have faces := ported.faces .input p (List.mem_filter.mp member).1
      have faces' := ported'.faces .input p' (List.mem_filter.mp member').1
      have same : p'.id = p.id := kept p' (perm.mem_iff.mp (Node.mem_ports_of_dataInputs member')) p
        (Node.mem_ports_of_dataInputs member)
        (Prod.ext (faces.trans faces'.symm) (name.trans name'.symm))
      have distinct : ((n.withPorts env.oracle ports).dataInputs.map (·.id)).Nodup :=
        (ported'.nodup_facing .input).sublist (List.filter_sublist.map _)
      have given : (n.withPorts env.oracle ports).constants.get? p'.id =
          some (keptConstant env.oracle p' (n.constants.get? p'.id)) :=
        get?_redefineConstants distinct member'
      rw [same, held, keptConstant_of_fits (typed' ▸ fits)] at given
      rw [same]
      exact given
  · exact stores.untouched extended (.defineNode run here) found'

/-- What is done to a call: it may be bound to another kind, and then its ports may be defined. -/
def Rebinds (env : DefinitionEnv) (k : NodeId) (g : Graph) (supply : IdSupply) (after : Workpiece) :
    Prop :=
  ∃ bound : Graph, (∀ id, (bound.node? id).map Node.holdings = (g.node? id).map Node.holdings) ∧
    (after = (bound, supply) ∨ bound.defineNode env k supply = .ok after)

theorem Rebinds.refl (env : DefinitionEnv) (k : NodeId) (g : Graph) (supply : IdSupply) :
    Rebinds env k g supply (g, supply) :=
  ⟨g, fun _ => rfl, .inl rfl⟩

theorem holdings_modifyNode {change : Node → Node} (kept : ∀ n, (change n).holdings = n.holdings)
    (id : NodeId) :
    ((g.modifyNode k change).node? id).map Node.holdings = (g.node? id).map Node.holdings := by
  rw [node?_modifyNode]
  split
  · rename_i same
    rw [same, Option.map_map]
    exact congrArg (Option.map · (g.node? k)) (funext kept)
  · rfl

theorem setCallMethod_rebinds (g : Graph) (env : DefinitionEnv) (k : NodeId) (method : MethodRef)
    (supply : IdSupply) : Rebinds env k g supply (g.setCallMethod env k method supply).2 := by
  unfold setCallMethod
  split
  · exact .refl env k g supply
  · split
    · split
      · exact .refl env k g supply
      · dsimp only
        generalize bind : g.modifyNode k _ = bound
        refine ⟨bound, bind ▸ holdings_modifyNode fun _ => rfl, ?_⟩
        split
        · rename_i defined
          exact .inr defined
        · exact .inl rfl
    · exact .refl env k g supply

theorem inferNode_rebinds (g : Graph) (env : DefinitionEnv) (k : NodeId) (supply : IdSupply) :
    Rebinds env k g supply (g.inferNode env k supply).2 := by
  unfold inferNode
  split
  · exact .refl env k g supply
  · split
    · split
      · exact .refl env k g supply
      · split
        · exact .refl env k g supply
        · dsimp only
          generalize bind : g.modifyNode k _ = bound
          refine ⟨bound, bind ▸ holdings_modifyNode fun _ => rfl, ?_⟩
          split
          · exact .inl rfl
          · rename_i defined
            split <;> exact .inr defined
    · exact .refl env k g supply

theorem Stores.rebinds {after : Workpiece} (stores : g.Stores supply id input type value)
    (rebinds : Rebinds env k g supply after) (lasts : after.2.next ≤ UInt64.size)
    (placed : after.1.HasInput id input type) (fits : value.Fits env.oracle type) :
    after.1.Stores after.2 id input type value := by
  obtain ⟨bound, same, run⟩ := rebinds
  have stored : bound.Stores supply id input type value := by
    obtain ⟨n, found, filed, stores⟩ := stores
    have here := same id
    rw [found, Option.map_some, Option.map_eq_some_iff] at here
    obtain ⟨m, foundM, holdings⟩ := here
    exact ⟨m, foundM, (Prod.mk.inj holdings).1.trans filed, stores.of_holdings holdings (.refl supply)⟩
  rcases run with rfl | defined
  · exact stored
  · exact stored.defineNode defined lasts placed fits

theorem setConstant_spec (run : g.setConstant id input value = .ok g') :
    ∃ n q, g.node? id = some n ∧ q ∈ n.dataInputs ∧ q.name = input ∧
      g'.node? id = some { n with constants := n.constants.insert q.id value } ∧
      ∀ k, k ≠ id → g'.node? k = g.node? k := by
  unfold Graph.setConstant at run
  split at run
  · cases run
  · rename_i n found
    split at run
    · cases run
    · rename_i q seen
      obtain rfl := Except.ok.inj run
      refine ⟨n, q, found, List.mem_of_find?_eq_some seen, by simpa using List.find?_some seen, ?_, ?_⟩
      · rw [node?_modifyNode, if_pos rfl, found, Option.map_some]
      · exact fun k other => by rw [node?_modifyNode, if_neg other]

/-- Storing a value elsewhere leaves what is stored in an input. -/
theorem Stores.setConstant {name : String} {other : Constant}
    (stores : g.Stores supply id input type value) (run : g.setConstant k name other = .ok g')
    (elsewhere : k ≠ id ∨ name ≠ input) : g'.Stores supply id input type value := by
  obtain ⟨n, found, filed, stores⟩ := stores
  obtain ⟨m, q, foundK, member, rfl, now, others⟩ := setConstant_spec run
  by_cases here : id = k
  · subst here
    obtain rfl := Option.some.inj (found.symm.trans foundK)
    have apart : q.name ≠ input := elsewhere.resolve_left fun away => away rfl
    exact ⟨_, now, filed, stores.insert member apart⟩
  · exact ⟨n, (others id here).trans found, filed, stores⟩

/-- What has just been stored is stored. -/
theorem stores_of_setConstant (formed : g.WellFormed) (unused : ∀ {u}, g.Uses u → ¬ supply.Holds u)
    (declared : g.HasInput id input type) (run : g.setConstant id input value = .ok g') :
    g'.Stores supply id input type value := by
  obtain ⟨n, found, p, listed, named, typed⟩ := declared.exists_input
  obtain ⟨n', q, found', member, named', now, -⟩ := setConstant_spec run
  obtain rfl := Option.some.inj (found.symm.trans found')
  have filed : n.id = id := formed.nodeFiled found
  have ported := formed.ported found
  have same : p = q := List.inj_on_of_nodup_map (ported.names .input) (List.mem_filter.mp listed).1
    (List.mem_filter.mp member).1 (named.trans named'.symm)
  refine ⟨_, now, filed, ported.setConstant member, ?_, ?_, q, member, named', same ▸ typed,
    OrderedMap.get?_insert_self⟩
  · exact fun held => unused (.node found) (filed ▸ held)
  · exact fun r inside => unused (.port found inside)

end Graph

/-! ### Edits -/

/-- An edit stores nothing in an input. Inferring all calls is inferring them one by one, and what is
to be said of it is said of the single edits. -/
def GraphEdit.Spares (id : NodeId) (input : String) : GraphEdit → Prop
  | .setConstant node name _ => node ≠ id ∨ name ≠ input
  | .inferAll => False
  | _ => True

/-- After every one of several edits an input is in place with its type, inputs of which keep the value
then, and nothing is stored in the input. -/
def Workpiece.Spares (id : NodeId) (input : String) (type : TypeHandle) (value : Constant) :
    Workpiece → List (DefinitionEnv × GraphEdit) → Prop
  | _, [] => True
  | work, (env, edit) :: rest =>
    edit.Spares id input ∧ (edit.apply env work).1.HasInput id input type ∧
      value.Fits env.oracle type ∧ Spares id input type value (edit.apply env work) rest

instance GraphEdit.decidableSpares (id : NodeId) (input : String) :
    (edit : GraphEdit) → Decidable (edit.Spares id input)
  | .setConstant _ _ _ => inferInstanceAs (Decidable (_ ∨ _))
  | .inferAll => .isFalse not_false
  | .spawn _ _ | .push _ _ _ | .remove _ | .define _ | .setCallMethod _ _ | .connect _ _ _ _
  | .connectByName _ _ _ _ | .disconnect _ | .disconnectPort _ | .inferNode _ | .addVariable _
  | .removeVariable _ => .isTrue trivial

instance Workpiece.decidableSpares (id : NodeId) (input : String) (type : TypeHandle)
    (value : Constant) : (work : Workpiece) → (edits : List (DefinitionEnv × GraphEdit)) →
    Decidable (work.Spares id input type value edits)
  | _, [] => .isTrue trivial
  | work, (env, edit) :: rest =>
    have := decidableSpares id input type value (edit.apply env work) rest
    inferInstanceAs (Decidable (_ ∧ _ ∧ _ ∧ _))

/-- What one edit keeps: a stored value, where its input stays in place. -/
theorem GraphEdit.apply_stores {env : DefinitionEnv} {edit : GraphEdit} {work : Workpiece} {id : NodeId}
    {input : String} {type : TypeHandle} {value : Constant}
    (stores : work.1.Stores work.2 id input type value) (spares : edit.Spares id input)
    (lasts : (edit.apply env work).2.next ≤ UInt64.size)
    (placed : (edit.apply env work).1.HasInput id input type) (fits : value.Fits env.oracle type) :
    (edit.apply env work).1.Stores (edit.apply env work).2 id input type value := by
  obtain ⟨g, supply⟩ := work
  obtain ⟨n', found', -⟩ := placed.exists_input
  have extended : supply.Extends (edit.apply env (g, supply)).2 := (edit.apply_tends env (g, supply)).extended
  have untouched : Graph.Untouched id g (edit.apply env (g, supply)).1 →
      (edit.apply env (g, supply)).1.Stores (edit.apply env (g, supply)).2 id input type value :=
    fun same => stores.untouched extended same found'
  have apart : supply.fresh.2.Extends (edit.apply env (g, supply)).2 → id ≠ ⟨supply.fresh.1⟩ := by
    rintro taken rfl
    obtain ⟨n, -, filed, stored⟩ := stores
    exact stored.apart (filed ▸ (IdSupply.taken_fresh taken).holds lasts)
  cases edit with
  | spawn kind position =>
    exact untouched (.spawn g env kind.1 position apart)
  | push stack index kind =>
    exact untouched (.push g env stack index kind.1 apart)
  | remove node => exact untouched (.remove g node)
  | define node =>
    have rebinds : Graph.Rebinds env node g supply ((GraphEdit.define node).apply env (g, supply)) := by
      rw [GraphEdit.apply]
      dsimp only
      split
      · rename_i defined
        exact ⟨g, fun _ => rfl, .inr defined⟩
      · exact .refl env node g supply
    exact stores.rebinds rebinds lasts placed fits
  | setCallMethod node method =>
    exact stores.rebinds (Graph.setCallMethod_rebinds g env node method supply) lasts placed fits
  | setConstant node name other =>
    rw [GraphEdit.apply]
    dsimp only
    split
    · rename_i stored
      exact stores.setConstant stored spares
    · exact stores
  | connect fromNode fromPort toNode toPort =>
    refine untouched ?_
    rw [GraphEdit.apply]
    cases run : g.connect fromNode fromPort toNode toPort supply with
    | ok made => exact .connect run
    | error => exact .refl id g
  | connectByName fromNode output toNode input =>
    refine untouched ?_
    rw [GraphEdit.apply]
    cases run : g.connectByName fromNode output toNode input supply with
    | ok made => exact .connectByName run
    | error => exact .refl id g
  | disconnect edge => exact untouched (.of_eq rfl)
  | disconnectPort port => exact untouched (.of_eq rfl)
  | inferNode node =>
    exact stores.rebinds (Graph.inferNode_rebinds g env node supply) lasts placed fits
  | inferAll => exact absurd spares not_false
  | addVariable decl => exact untouched (.of_eq rfl)
  | removeVariable gone => exact untouched (.removeVariable g gone)

/-- What edits keep, one after the other. -/
theorem Workpiece.after_stores {work : Workpiece} {edits : List (DefinitionEnv × GraphEdit)}
    {id : NodeId} {input : String} {type : TypeHandle} {value : Constant}
    (stores : work.1.Stores work.2 id input type value)
    (spares : work.Spares id input type value edits)
    (lasts : (work.after edits).2.next ≤ UInt64.size) :
    (work.after edits).1.Stores (work.after edits).2 id input type value := by
  induction edits generalizing work with
  | nil => exact stores
  | cons edit rest ih =>
    obtain ⟨spared, placed, fits, later⟩ := spares
    have extended := (Workpiece.after_tends rest (edit.2.apply edit.1 work)).extended
    have once := GraphEdit.apply_stores stores spared (Nat.le_trans extended.next lasts) placed fits
    exact ih once later lasts

namespace Graph

/-- A value that is stored in an input of a well-formed graph is the value of the input for as long as
the input is in place with its type, inputs of the type keep the value, and nothing else is stored
there: whatever edits are made meanwhile, and whatever is known about types when each of them is made,
whether ports are defined anew, calls are bound to other methods or their type arguments are inferred.
-/
theorem storedValue_lasts {g g' : Graph} {supply : IdSupply} {id : NodeId} {input : String}
    {type : TypeHandle} {value : Constant} (formed : g.WellFormed)
    (unused : ∀ {u}, g.Uses u → ¬ supply.Holds u) (declared : g.HasInput id input type)
    (run : g.setConstant id input value = .ok g') (edits : List (DefinitionEnv × GraphEdit))
    (spares : Workpiece.Spares id input type value (g', supply) edits)
    (lasts : (Workpiece.after (g', supply) edits).2.next ≤ UInt64.size) :
    (Workpiece.after (g', supply) edits).1.storedValue? id input = some value :=
  (Workpiece.after_stores (stores_of_setConstant formed unused declared run) spares lasts).storedValue?

/-- The condition of a choice that was set stays set: while its ports are defined anew, while another
choice is put in front of it, and while the edge to the other stack is removed. -/
theorem storedValue_lasts_branching :
    let env : DefinitionEnv := ⟨TypeDatabase.empty.toOracle, ∅⟩
    let node (n : Nat) : NodeId := ⟨familyIdentity 0 n⟩
    let edits : List (DefinitionEnv × GraphEdit) := [.define (node 5),
      .push (node 0) (some 0) ⟨.branch, rfl⟩, .disconnectPort ⟨familyIdentity 0 7⟩,
      .define (node 5)].map fun edit => (env, edit)
    branching.1.WellFormed ∧ (∀ {u}, branching.1.Uses u → ¬ branching.2.Holds u) ∧
      branching.1.HasInput (node 5) "Condition" .bool ∧
      ∃ g', branching.1.setConstant (node 5) "Condition" (.bool true) = .ok g' ∧
        Workpiece.Spares (node 5) "Condition" .bool (.bool true) (g', branching.2) edits ∧
        (Workpiece.after (g', branching.2) edits).2.next ≤ UInt64.size ∧
        (Workpiece.after (g', branching.2) edits).1.storedValue? (node 5) "Condition" =
          some (.bool true) := by
  intro env node edits
  have tended := branching_tended
  have declared : branching.1.HasInput (node 5) "Condition" .bool := by decide +kernel
  have stores : ((branching.1.setConstant (node 5) "Condition" (.bool true)).toOption.any fun g' =>
      decide (Workpiece.Spares (node 5) "Condition" .bool (.bool true) (g', branching.2) edits) &&
        decide ((Workpiece.after (g', branching.2) edits).2.next ≤ UInt64.size)) = true := by
    decide +kernel
  cases run : branching.1.setConstant (node 5) "Condition" (.bool true) with
  | error e =>
    rw [run] at stores
    cases stores
  | ok g' =>
    rw [run] at stores
    obtain ⟨spares, room⟩ := (Bool.and_eq_true _ _).mp stores
    have spares := of_decide_eq_true spares
    have room := of_decide_eq_true room
    exact ⟨tended.toWellFormed, tended.unused, declared, g', rfl, spares, room,
      storedValue_lasts tended.toWellFormed tended.unused declared run edits spares room⟩

/-- A number that was stored as the condition of a choice is there until the ports of the choice are
defined anew, and gone then. -/
theorem storedValue_reset :
    ¬ ∀ (g g₁ g₂ : Graph) (env : DefinitionEnv) (id : NodeId) (input : String) (type : TypeHandle)
      (value : Constant) (supply supply' : IdSupply), g.WellFormed →
      (∀ u, g.Uses u → ¬ supply.Holds u) → g.setConstant id input value = .ok g₁ →
      g₁.defineNode env id supply = .ok (g₂, supply') → supply'.next ≤ UInt64.size →
      g₁.HasInput id input type → g₂.HasInput id input type →
      g₂.storedValue? id input = some value := by
  intro always
  let env : DefinitionEnv := ⟨TypeDatabase.empty.toOracle, ∅⟩
  let id : NodeId := ⟨familyIdentity 0 5⟩
  have tended := branching_tended
  have resets : ((branching.1.setConstant id "Condition" (.int 5)).toOption.any fun g₁ =>
      (g₁.defineNode env id branching.2).toOption.any fun after =>
        decide (after.2.next ≤ UInt64.size) && decide (g₁.HasInput id "Condition" .bool) &&
          decide (after.1.HasInput id "Condition" .bool) &&
          decide (after.1.storedValue? id "Condition" ≠ some (.int 5))) = true := by decide +kernel
  cases stored : branching.1.setConstant id "Condition" (.int 5) with
  | error e =>
    rw [stored] at resets
    cases resets
  | ok g₁ =>
    rw [stored, Except.toOption, Option.any_some] at resets
    cases run : g₁.defineNode env id branching.2 with
    | error e =>
      rw [run] at resets
      cases resets
    | ok after =>
      rw [run, Except.toOption, Option.any_some] at resets
      simp only [Bool.and_eq_true, decide_eq_true_eq] at resets
      obtain ⟨⟨⟨room, before⟩, later⟩, reset⟩ := resets
      exact reset (always branching.1 g₁ after.1 env id "Condition" .bool (.int 5) branching.2 after.2
        tended.toWellFormed (fun _ => tended.unused) stored run room before later)

end Graph

end NodeScript
