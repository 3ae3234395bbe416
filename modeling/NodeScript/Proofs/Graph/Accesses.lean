import NodeScript.Proofs.Graph.Cascade
import NodeScript.Proofs.Graph.Histories
import NodeScript.Proofs.Graph.InPlace

/-!
Nodes that read or write variables, and the variables that they refer to. Removing a variable takes its
readers and writers with it, wherever they are. Removing a function takes the variables of the function
and what is in it, but nodes elsewhere that read or write these variables stay, and from then on they
refer to nothing. Nothing else can bring that about.
-/

namespace NodeScript

/-- A node whose ports could be defined refers to a variable that there is. -/
theorem NodeKind.accessed_declared {kind : NodeKind} {env : DefinitionEnv}
    {vars : OrderedMap VariableId VariableDecl} {returnType : Option TypeHandle}
    {specs : List PortSpec} {v : VariableId}
    (defined : kind.definePorts env vars returnType = .ok specs) (accessed : kind.accessed? = some v) :
    ∃ decl, vars.get? v = some decl := by
  cases held : vars.get? v with
  | some decl => exact ⟨decl, rfl⟩
  | none =>
    cases kind with
    | getVariable id | setVariable id =>
      obtain rfl := Option.some.inj accessed
      simp [definePorts, declaredPorts, held] at defined
    | _ => cases accessed

theorem NodeKind.isStack_of_accessed {kind : NodeKind} {v : VariableId}
    (accessed : kind.accessed? = some v) : kind.isStack = false := by
  cases kind <;> first | rfl | cases accessed

namespace Graph

open Relation

variable {g g' added : Graph} {id k : NodeId} {n m : Node} {v : VariableId} {gone : NodeId → Bool}
  {env : DefinitionEnv} {kind : NodeKind} {supply supply' : IdSupply}

/-- A node that reads or writes a variable refers to one that is declared. -/
def AccessesDeclared (g : Graph) : Prop :=
  ∀ k n v, g.node? k = some n → n.kind.accessed? = some v → ∃ decl, g.variableDecl? v = some decl

/-- With a node goes a function whose variable is read or written by a node that stays. -/
def Orphans (g : Graph) (id : NodeId) : Prop :=
  ∃ k n v decl f, g.node? k = some n ∧ ¬ g.Below [id] k ∧ n.kind.accessed? = some v ∧
    g.variableDecl? v = some decl ∧ decl.scope.function? = some f ∧ g.isFunction f = true ∧
    g.Below [id] f

/-- Nodes are filed under their identities, and what is no stack lists at most itself. It comes to that
where a node takes the identity of the stack that it is put into. -/
structure Plain (g : Graph) : Prop where
  filed : ∀ {k n}, g.node? k = some n → n.id = k
  bare : ∀ {k n}, g.node? k = some n → n.kind.isStack = false → ∀ c ∈ n.children, c = k

/-! ### Removals -/

theorem Cut.plain (cut : Cut gone g g') (plain : g.Plain) : g'.Plain where
  filed found := by
    obtain ⟨-, n, before, rfl⟩ := cut.exists_of_node? found
    exact (plain.filed before :)
  bare found single c inside := by
    obtain ⟨-, n, before, rfl⟩ := cut.exists_of_node? found
    exact plain.bare before single c (List.mem_filter.mp inside).1

theorem Cut.variableDecl? (cut : Cut gone g g') : g'.variableDecl? v =
    (g.variableDecl? v).filter fun decl =>
      !decl.scope.function?.any fun f => gone f && g.isFunction f := by
  rw [Graph.variableDecl?, cut.vars]
  exact OrderedMap.get?_filter

/-- After a removal what is read or written is declared, unless a function went whose variable a node
reads or writes that stays. -/
theorem remove_accessesDeclared_iff (declared : g.AccessesDeclared) :
    (g.remove id).2.AccessesDeclared ↔ ¬ g.Orphans id := by
  obtain ⟨gone, cut, taken⟩ := (remove_removes g id).cut
  have stays : ∀ k, gone k = false ↔ ¬ g.Below [id] k := fun k => by
    rw [← taken k, Bool.not_eq_true]
  constructor
  · rintro after ⟨k, n, v, decl, f, found, left, accessed, held, owner, function, below⟩
    obtain ⟨decl', held'⟩ := after k _ v (cut.node?_of_stays found ((stays k).mpr left)) accessed
    rw [cut.variableDecl?, held, Option.filter_eq_some_iff] at held'
    obtain ⟨same, kept⟩ := held'
    obtain rfl := Option.some.inj same
    simp [owner, function, (taken f).mpr below] at kept
  · intro spared k m v found accessed
    obtain ⟨left, n, before, rfl⟩ := cut.exists_of_node? found
    obtain ⟨decl, held⟩ := declared k n v before accessed
    refine ⟨decl, ?_⟩
    rw [cut.variableDecl?, held, Option.filter_eq_some_iff]
    refine ⟨rfl, ?_⟩
    by_contra dropped
    simp only [Bool.not_eq_true, Bool.not_eq_false', Option.any_eq_true, Bool.and_eq_true] at dropped
    obtain ⟨f, owner, out, function⟩ := dropped
    exact spared ⟨k, n, v, decl, f, before, (stays k).mp left, accessed, held, owner, function,
      (taken f).mp out⟩

/-- Where no stack is among them, only the nodes themselves are removed, and no variable. -/
theorem Removes.singles {ids : List NodeId} (run : Removes g ids g') (plain : g.Plain)
    (singles : ∀ i ∈ ids, ∀ n, g.node? i = some n → n.kind.isStack = false) :
    g'.vars = g.vars ∧ g'.Plain ∧ ∀ {k m}, g'.node? k = some m →
      k ∉ ids ∧ ∃ n, g.node? k = some n ∧ m.kind = n.kind := by
  obtain ⟨gone, cut, taken⟩ := run.cut
  have among : ∀ k, gone k = true → k ∈ ids := by
    refine fun k out => ((taken k).mp out).induct (· ∈ ids) (fun i member _ => member) ?_
    rintro s k member ⟨h, found, inside⟩ -
    rwa [plain.bare found (singles s member h found) k inside]
  have vars : g'.vars = g.vars := by
    rw [cut.vars]
    refine OrderedMap.filter_eq_self fun _ decl => ?_
    rw [Bool.not_eq_true', Option.any_eq_false]
    rintro f -
    refine Bool.eq_false_iff.mpr fun both => ?_
    obtain ⟨out, function⟩ := (Bool.and_eq_true _ _).mp both
    obtain ⟨n, found⟩ := cut.there out
    have stack := isStack_of_isFunction found function
    rw [singles f (among f out) n found] at stack
    cases stack
  refine ⟨vars, cut.plain plain, fun {k m} found => ?_⟩
  obtain ⟨left, n, before, rfl⟩ := cut.exists_of_node? found
  refine ⟨fun member => ?_, n, before, rfl⟩
  rw [(taken k).mpr (.of_mem member ⟨n, before⟩)] at left
  cases left

/-! ### Creations -/

/-- A node of a kind has come to a graph. -/
structure Arrived (id : NodeId) (kind : NodeKind) (g added : Graph) : Prop where
  here : ∃ n, added.node? id = some n ∧ n.id = id ∧ n.kind = kind ∧ ∀ c ∈ n.children, c = id
  others : ∀ {k m}, k ≠ id → added.node? k = some m →
    ∃ n, g.node? k = some n ∧ m.id = n.id ∧ m.kind = n.kind ∧
      (n.kind.isStack = false → m.children = n.children)
  vars : added.vars = g.vars

theorem Arrived.addNode (bare : n.children = []) : Arrived n.id n.kind g (g.addNode n) where
  here := ⟨n, by rw [node?_addNode, if_pos rfl], rfl, rfl, by simp [bare]⟩
  others {k m} other found := by
    rw [node?_addNode, if_neg other] at found
    exact ⟨m, found, rfl, rfl, fun _ => rfl⟩
  vars := rfl

theorem Arrived.stackNode {holder : Node} {stack : NodeId} (found : g.node? stack = some holder)
    (isStack : holder.kind.isStack = true) (bare : n.children = []) (place : Nat) :
    Arrived n.id n.kind g (g.stackNode n stack place) where
  here := by
    rw [Graph.stackNode, node?_modifyNode]
    by_cases self : n.id = stack
    · rw [if_pos self, node?_addNode, if_pos self.symm]
      refine ⟨_, rfl, rfl, rfl, fun c inside => ?_⟩
      have among : c ∈ n.children.insertIdx place n.id := inside
      rw [bare] at among
      exact (List.eq_or_mem_of_mem_insertIdx among).resolve_right List.not_mem_nil
    · rw [if_neg self, node?_addNode, if_pos rfl]
      exact ⟨n, rfl, rfl, rfl, by simp [bare]⟩
  others {k m} other foundK := by
    rw [Graph.stackNode, node?_modifyNode] at foundK
    by_cases here : k = stack
    · subst here
      rw [if_pos rfl, node?_addNode, if_neg other, found] at foundK
      obtain rfl := Option.some.inj foundK
      refine ⟨holder, found, rfl, rfl, fun single => ?_⟩
      rw [isStack] at single
      cases single
    · rw [if_neg here, node?_addNode, if_neg other] at foundK
      exact ⟨m, foundK, rfl, rfl, fun _ => rfl⟩
  vars := rfl

namespace Arrived

variable (arrived : Arrived id kind g added) (plain : g.Plain) (declared : g.AccessesDeclared)

include arrived

include plain in
theorem stays_plain : added.Plain where
  filed {k m} found := by
    by_cases self : k = id
    · subst self
      obtain ⟨n, here, filed, -⟩ := arrived.here
      obtain rfl := Option.some.inj (here.symm.trans found)
      exact filed
    · obtain ⟨n, before, same, -⟩ := arrived.others self found
      exact same.trans (plain.filed before)
  bare {k m} found single c inside := by
    by_cases self : k = id
    · subst self
      obtain ⟨n, here, -, -, bare⟩ := arrived.here
      obtain rfl := Option.some.inj (here.symm.trans found)
      exact bare c inside
    · obtain ⟨n, before, -, same, children⟩ := arrived.others self found
      rw [same] at single
      rw [children single] at inside
      exact plain.bare before single c inside

include declared in
theorem declared_of_ne (other : k ≠ id) (found : added.node? k = some m)
    (accessed : m.kind.accessed? = some v) : ∃ decl, g.variableDecl? v = some decl := by
  obtain ⟨n, before, -, same, -⟩ := arrived.others other found
  exact declared k n v before (same ▸ accessed)

include plain declared in
/-- A node whose ports have been defined refers to a variable that is declared, as the others do. -/
theorem defined (run : added.defineNode env id supply = .ok (g', supply')) :
    g'.Plain ∧ g'.AccessesDeclared := by
  obtain ⟨n, here, -, rfl, -⟩ := arrived.here
  obtain ⟨specs, defined, rfl, -⟩ := defineNode_made here run
  have stays := arrived.stays_plain plain
  generalize realizePorts id specs n.ports supply = realized
  let g' : Graph := Graph.dropEdges
    { added with nodes := added.nodes.insert id (n.withPorts env.oracle realized.1) }
    (realized.2.1.map (·.id))
  have cases : ∀ {k m}, g'.node? k = some m →
      (k = id ∧ m = n.withPorts env.oracle realized.1) ∨ (k ≠ id ∧ added.node? k = some m) := by
    intro k m found
    have inserted : (added.nodes.insert id (n.withPorts env.oracle realized.1)).get? k = some m := found
    rw [OrderedMap.get?_insert] at inserted
    split at inserted
    · exact .inl ⟨‹_›, (Option.some.inj inserted).symm⟩
    · exact .inr ⟨‹_›, inserted⟩
  have vars : ∀ v, g'.variableDecl? v = g.variableDecl? v := fun v =>
    congrArg (OrderedMap.get? · v) arrived.vars
  refine ⟨⟨fun {k m} found => ?_, fun {k m} found single => ?_⟩, fun k m v found accessed => ?_⟩
  · obtain ⟨rfl, rfl⟩ | ⟨-, before⟩ := cases found
    · exact (stays.filed here :)
    · exact stays.filed before
  · obtain ⟨rfl, rfl⟩ | ⟨-, before⟩ := cases found
    · have bare : ∀ c ∈ n.children, c = k := stays.bare here single
      exact bare
    · exact stays.bare before single
  · rw [vars]
    obtain ⟨rfl, rfl⟩ | ⟨other, before⟩ := cases found
    · obtain ⟨decl, held⟩ := NodeKind.accessed_declared defined accessed
      exact ⟨decl, by rw [← held, arrived.vars]; rfl⟩
    · exact arrived.declared_of_ne declared other before accessed

include plain declared in
/-- When a node is taken out of the table again, what is left refers to what it referred to. -/
theorem erased : Graph.Plain { added with nodes := added.nodes.erase id } ∧
    Graph.AccessesDeclared { added with nodes := added.nodes.erase id } := by
  have stays := arrived.stays_plain plain
  refine ⟨⟨fun found => stays.filed (node?_erase_eq_some_iff.mp found).2,
    fun found => stays.bare (node?_erase_eq_some_iff.mp found).2⟩, fun k m v found accessed => ?_⟩
  obtain ⟨other, before⟩ := node?_erase_eq_some_iff.mp found
  rw [variableDecl?, arrived.vars]
  exact arrived.declared_of_ne declared other before accessed

include plain declared in
/-- When a node that is no stack is removed again, what is left refers to what it referred to. -/
theorem removed (single : kind.isStack = false) :
    (added.remove id).2.Plain ∧ (added.remove id).2.AccessesDeclared := by
  obtain ⟨n, here, -, rfl, -⟩ := arrived.here
  have singles : ∀ i ∈ [id], ∀ m, added.node? i = some m → m.kind.isStack = false := by
    intro i member m found
    rw [List.mem_singleton.mp member, here] at found
    rwa [← Option.some.inj found]
  obtain ⟨vars, stays, left⟩ :=
    (remove_removes added id).singles (arrived.stays_plain plain) singles
  refine ⟨stays, fun k m v found accessed => ?_⟩
  obtain ⟨other, m', before, same⟩ := left found
  rw [variableDecl?, vars, arrived.vars]
  exact arrived.declared_of_ne declared (fun here => other (List.mem_singleton.mpr here)) before
    (same ▸ accessed)

end Arrived

theorem spawn_declared (plain : g.Plain) (declared : g.AccessesDeclared) (env : DefinitionEnv)
    (kind : NodeKind) (position : Position) (supply : IdSupply) :
    (g.spawn env kind position supply).2.1.Plain ∧
      (g.spawn env kind position supply).2.1.AccessesDeclared := by
  unfold spawn
  split
  · dsimp only
    have arrived := Arrived.addNode (g := g)
      (n := { Node.new ⟨supply.fresh.1⟩ kind with position }) rfl
    split
    · rename_i run
      exact arrived.defined plain declared run
    · exact arrived.erased plain declared
  · exact ⟨plain, declared⟩

theorem push_declared (plain : g.Plain) (declared : g.AccessesDeclared) (env : DefinitionEnv)
    (stack : NodeId) (index : Option Nat) (kind : NodeKind) (supply : IdSupply) :
    (g.push env stack index kind supply).2.1.Plain ∧
      (g.push env stack index kind supply).2.1.AccessesDeclared := by
  obtain ⟨e, refused⟩ | ⟨holder, added, found, isStack, single, rfl, pushed⟩ :=
    push_cases g env stack index kind supply
  · rw [refused]
    exact ⟨plain, declared⟩
  · rw [pushed]
    have arrived := Arrived.stackNode (n := { Node.new ⟨supply.fresh.1⟩ kind with parent := some stack })
      found isStack rfl (min (index.getD holder.children.length) holder.children.length)
    split
    · rename_i run
      exact arrived.defined plain declared run
    · exact arrived.removed plain declared single

/-- With a variable go the nodes that read or write it. -/
theorem removeVariable_declared (plain : g.Plain) (declared : g.AccessesDeclared) (id : VariableId) :
    (g.removeVariable id).2.Plain ∧ (g.removeVariable id).2.AccessesDeclared := by
  unfold removeVariable
  split
  · exact ⟨plain, declared⟩
  · dsimp only
    generalize users_eq : (g.nodes.values.filter fun n => n.kind.accessed? = some id).map (·.id) = users
    let without : Graph := { g with vars := g.vars.erase id }
    have plain' : without.Plain := ⟨plain.filed, plain.bare⟩
    have member : ∀ {k n}, g.node? k = some n → (k ∈ users ↔ n.kind.accessed? = some id) := by
      intro k n found
      rw [← users_eq]
      constructor
      · intro inside
        obtain ⟨n', among, rfl⟩ := List.mem_map.mp inside
        obtain ⟨there, accessed⟩ := List.mem_filter.mp among
        obtain ⟨k', entry⟩ := OrderedMap.mem_values_iff.mp there
        have before : g.node? k' = some n' := OrderedMap.get?_eq_some_iff.mpr entry
        obtain rfl := plain.filed before
        obtain rfl := Option.some.inj (found.symm.trans before)
        exact of_decide_eq_true accessed
      · intro accessed
        exact List.mem_map.mpr ⟨n, List.mem_filter.mpr
          ⟨OrderedMap.mem_values_of_get? found, decide_eq_true accessed⟩, plain.filed found⟩
    obtain ⟨vars, stays, left⟩ := (foldl_remove_removes without users).singles plain'
      fun i inside n found => NodeKind.isStack_of_accessed ((member found).mp inside)
    refine ⟨stays, fun k m v found accessed => ?_⟩
    obtain ⟨other, n, before, same⟩ := left found
    have kept : v ≠ id := by
      rintro rfl
      exact other ((member before).mpr (same ▸ accessed))
    obtain ⟨decl, held⟩ := declared k n v before (same ▸ accessed)
    have left : (g.vars.erase id).get? v = some decl := by
      rw [OrderedMap.get?_erase, if_neg kept]
      exact held
    exact ⟨decl, by rw [variableDecl?, vars, left]⟩

end Graph

/-! ### Histories -/

/-- An edit that makes, removes or connects, of variables and of nodes of any kind. -/
inductive BasicEdit where
  | addVariable (decl : VariableDecl)
  | removeVariable (id : VariableId)
  | spawn (kind : NodeKind) (position : Position)
  | push (stack : NodeId) (index : Option Nat) (kind : NodeKind)
  | remove (node : NodeId)
  | connect (fromNode : NodeId) (fromPort : PortId) (toNode : NodeId) (toPort : PortId)
  | connectByName (fromNode : NodeId) (output : String) (toNode : NodeId) (input : String)
  | disconnect (edge : EdgeId)
  | disconnectPort (port : PortId)

/-- The graph and the supply after an edit, whether it succeeds or not. -/
def BasicEdit.apply (env : DefinitionEnv) (work : Workpiece) : BasicEdit → Workpiece
  | .addVariable decl => (work.1.addVariable decl, work.2)
  | .removeVariable id => ((work.1.removeVariable id).2, work.2)
  | .spawn kind position => (work.1.spawn env kind position work.2).2
  | .push stack index kind => (work.1.push env stack index kind work.2).2
  | .remove node => ((work.1.remove node).2, work.2)
  | .connect fromNode fromPort toNode toPort =>
    work.orKeep (work.1.connect fromNode fromPort toNode toPort work.2)
  | .connectByName fromNode output toNode input =>
    work.orKeep (work.1.connectByName fromNode output toNode input work.2)
  | .disconnect edge => ((work.1.disconnect edge).2, work.2)
  | .disconnectPort port => ((work.1.disconnectPort port).2, work.2)

/-- What edits lead to, each made with what is known about types at its time. -/
def Workpiece.through (work : Workpiece) (edits : List (DefinitionEnv × BasicEdit)) : Workpiece :=
  edits.foldl (fun work edit => edit.2.apply edit.1 work) work

/-- Every edit keeps what is read and written declared, except for removals that orphan. -/
theorem BasicEdit.apply_declared {work : Workpiece} (edit : BasicEdit) (plain : work.1.Plain)
    (declared : work.1.AccessesDeclared) (env : DefinitionEnv) :
    (edit.apply env work).1.Plain ∧
      ((edit.apply env work).1.AccessesDeclared ↔ ∀ id, edit = .remove id → ¬ work.1.Orphans id) := by
  have kept : ∀ {after : Workpiece}, (∃ edges, after.1 = { work.1 with edges }) →
      after.1.Plain ∧ after.1.AccessesDeclared := by
    rintro after ⟨edges, same⟩
    rw [same]
    exact ⟨⟨plain.filed, plain.bare⟩, declared⟩
  have fine : ∀ {after : Workpiece}, (∀ id, edit ≠ .remove id) →
      after.1.Plain ∧ after.1.AccessesDeclared →
      after.1.Plain ∧
        (after.1.AccessesDeclared ↔ ∀ id, edit = .remove id → ¬ work.1.Orphans id) :=
    fun other both => ⟨both.1, fun _ id same => absurd same (other id), fun _ => both.2⟩
  cases edit with
  | remove node =>
    obtain ⟨gone, cut, -⟩ := (Graph.remove_removes work.1 node).cut
    refine ⟨cut.plain plain, (Graph.remove_accessesDeclared_iff declared).trans ?_⟩
    simp
  | addVariable decl =>
    refine fine nofun ⟨⟨plain.filed, plain.bare⟩, fun k n v found accessed => ?_⟩
    obtain ⟨decl', held⟩ := declared k n v found accessed
    by_cases same : v = decl.id
    · exact ⟨decl, by rw [same]; exact OrderedMap.get?_insert_self⟩
    · exact ⟨decl', (OrderedMap.get?_insert_of_ne same).trans held⟩
  | removeVariable id => exact fine nofun (Graph.removeVariable_declared plain declared id)
  | spawn kind position => exact fine nofun (Graph.spawn_declared plain declared env kind position _)
  | push stack index kind => exact fine nofun (Graph.push_declared plain declared env stack index kind _)
  | connect fromNode fromPort toNode toPort =>
    refine fine nofun (kept ?_)
    rw [apply]
    cases run : work.1.connect fromNode fromPort toNode toPort work.2 with
    | ok made =>
      obtain ⟨-, -, e, -, same⟩ := Graph.connect_made run
      exact ⟨_, same⟩
    | error => exact ⟨_, rfl⟩
  | connectByName fromNode output toNode input =>
    refine fine nofun (kept ?_)
    rw [apply]
    cases run : work.1.connectByName fromNode output toNode input work.2 with
    | ok made =>
      obtain ⟨_, _, connected⟩ := Graph.connectByName_connect run
      obtain ⟨-, -, e, -, same⟩ := Graph.connect_made connected
      exact ⟨_, same⟩
    | error => exact ⟨_, rfl⟩
  | disconnect edge => exact fine nofun (kept ⟨_, rfl⟩)
  | disconnectPort port => exact fine nofun (kept ⟨_, rfl⟩)

namespace Workpiece

variable {work : Workpiece} {edits : List (DefinitionEnv × BasicEdit)}

theorem through_take_succ {i : Nat} {env : DefinitionEnv} {edit : BasicEdit}
    (here : edits[i]? = some (env, edit)) :
    work.through (edits.take (i + 1)) = edit.apply env (work.through (edits.take i)) := by
  rw [through, List.take_add_one, here, List.foldl_append]
  rfl

theorem through_take_plain (plain : work.1.Plain) (declared : work.1.AccessesDeclared)
    (spared : ∀ i env id, edits[i]? = some (env, .remove id) →
      ¬ (work.through (edits.take i)).1.Orphans id) (i : Nat) :
    (work.through (edits.take i)).1.Plain ∧ (work.through (edits.take i)).1.AccessesDeclared := by
  induction i with
  | zero => exact ⟨plain, declared⟩
  | succ i ih =>
    cases here : edits[i]? with
    | none =>
      rwa [List.take_add_one, here, Option.toList_none, List.append_nil]
    | some edit =>
      obtain ⟨env, edit⟩ := edit
      obtain ⟨after, iff⟩ := edit.apply_declared ih.1 ih.2 env
      rw [through_take_succ here]
      exact ⟨after, iff.mpr fun id same => spared i env id (same ▸ here)⟩

/-- All the time that a new graph is edited, what is read or written is declared, exactly if no node is
removed with a function whose variable a node reads or writes that stays. -/
theorem through_accessesDeclared_iff (name : String) (stencil : Stencil) (supply : IdSupply)
    (edits : List (DefinitionEnv × BasicEdit)) :
    (∀ i, ((start name stencil supply).through (edits.take i)).1.AccessesDeclared) ↔
      ∀ i env id, edits[i]? = some (env, .remove id) →
        ¬ ((start name stencil supply).through (edits.take i)).1.Orphans id := by
  have noNode : ∀ k, (start name stencil supply).1.node? k = none := fun _ => rfl
  have plain : (start name stencil supply).1.Plain :=
    ⟨fun found => (nomatch (noNode _).symm.trans found), fun found => (nomatch (noNode _).symm.trans found)⟩
  have declared : (start name stencil supply).1.AccessesDeclared :=
    fun _ _ _ found => (nomatch (noNode _).symm.trans found)
  constructor
  · intro always i env id here
    rw [← Graph.remove_accessesDeclared_iff (always i)]
    have after := always (i + 1)
    rwa [through_take_succ here] at after
  · exact fun spared i => (through_take_plain plain declared spared i).2

/-- A function is removed, a local of which a node outside of it reads. -/
def abandoning : List (DefinitionEnv × BasicEdit) :=
  let count : VariableId := ⟨familyIdentity 1 0⟩
  let function : NodeId := ⟨familyIdentity 0 0⟩
  [.spawn (.function (.onEvent .start)) default,
    .addVariable ⟨count, "count", .float, .local function, false, none⟩,
    .spawn (.getVariable count) default, .remove function].map fun edit =>
      (⟨TypeDatabase.empty.toOracle, ∅⟩, edit)

theorem through_abandoning : ¬ ∀ name stencil supply edits,
    ((start name stencil supply).through edits).1.AccessesDeclared := by
  intro always
  let left := (start "Abandoned" .standard (.ofFamily 0)).through abandoning
  have reads : (left.1.node? ⟨familyIdentity 0 2⟩).map (·.kind.accessed?) =
      some (some ⟨familyIdentity 1 0⟩) := by decide +kernel
  have absent : left.1.variableDecl? ⟨familyIdentity 1 0⟩ = none := by decide +kernel
  obtain ⟨n, found, accessed⟩ := Option.map_eq_some_iff.mp reads
  obtain ⟨decl, held⟩ := always "Abandoned" .standard (.ofFamily 0) abandoning _ n _ found accessed
  cases absent.symm.trans held

end Workpiece

end NodeScript
