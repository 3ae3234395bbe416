import NodeScript.Proofs.Graph.Verdicts

/-!
Making a call node call another method. Whether that succeeds is settled by the method: it has to be
known, and no two inputs of the call may share their name. Where two do, the node has already become a
call of the method when its ports turn out not to be definable, and it keeps the ports that it had.
-/

namespace NodeScript

/-- No two inputs of calls of a method share their name: no two parameters do, nor a parameter and the
object. -/
def MethodSignature.NamesApart (m : MethodSignature) : Prop :=
  (m.parameters.map (·.name)).Nodup ∧
    (m.isStatic = false → "Instance" ∉ m.parameters.map (·.name))

instance (m : MethodSignature) : Decidable m.NamesApart :=
  inferInstanceAs (Decidable (_ ∧ _))

theorem duplicatePort?_eq_none_iff {seen : List (PortDirection × String)} {specs : List PortSpec} :
    duplicatePort? seen specs = none ↔ (∀ p ∈ specs, (p.direction, p.name) ∉ seen) ∧
      (specs.map fun p => (p.direction, p.name)).Nodup := by
  refine ⟨duplicatePort?_eq_none, fun apart => ?_⟩
  induction specs generalizing seen with
  | nil => rfl
  | cons p rest ih =>
    obtain ⟨new, single⟩ := apart
    obtain ⟨alone, single⟩ := List.nodup_cons.mp single
    obtain ⟨first, new⟩ := List.forall_mem_cons.mp new
    rw [duplicatePort?, if_neg (by simpa using first)]
    refine ih ⟨fun q member again => ?_, single⟩
    rcases List.mem_cons.mp again with same | earlier
    · exact alone (List.mem_map.mpr ⟨q, member, same⟩)
    · exact new q member earlier

/-- The ports of a call can be put in place exactly if no two of its inputs share their name. -/
theorem MethodSignature.namesApart_iff (m : MethodSignature)
    (typeArguments : OrderedMap String TypeHandle) :
    duplicatePort? [] (callPorts m typeArguments) = none ↔ m.NamesApart := by
  have labels : (callPorts m typeArguments).map (fun p => (p.direction, p.name)) =
      (if m.isStatic then [] else [(.input, "Instance")]) ++
        (m.parameters.map (·.name)).map (PortDirection.input, ·) ++
          if m.returnType.isVoid then [] else [(.output, "Result")] := by
    rw [callPorts_eq, List.map_append, List.map_append, List.map_map, List.map_map]
    congr 2 <;> split <;> rfl
  have inputs : ((m.parameters.map (·.name)).map (PortDirection.input, ·)).Nodup ↔
      (m.parameters.map (·.name)).Nodup :=
    List.nodup_map_iff fun _ _ same => (Prod.mk.inj same).2
  rw [duplicatePort?_eq_none_iff, labels, NamesApart, ← inputs]
  generalize m.parameters.map (·.name) = names
  cases m.isStatic <;> cases m.returnType.isVoid <;>
    simp [List.nodup_append, List.nodup_cons, and_comm]

namespace Graph

variable {g g' : Graph} {env : DefinitionEnv} {id : NodeId} {n : Node} {method : MethodRef}
  {m : MethodSignature} {supply supply' : IdSupply} {e : GraphError}

/-- A node is a call. -/
def IsCall (g : Graph) (id : NodeId) : Prop := ∃ n decl, g.node? id = some n ∧ n.kind = .call decl

/-- A node has become a call of another method, and nothing else has changed. -/
def retarget (g : Graph) (id : NodeId) (method : MethodRef) : Graph :=
  g.modifyNode id fun n =>
    { n with
      kind := .call (.plain method)
      title := (NodeKind.call (.plain method)).defaultTitle }

/-- A call of a known method is put in place or, where two inputs share a name, is left as it is. -/
theorem setCallMethod_of_known (call : g.IsCall id) (known : env.oracle.method? method = some m)
    (supply : IdSupply) :
    g.setCallMethod env id method supply =
      match (g.retarget id method).defineNode env id supply with
      | .ok (g', supply') => (.ok (), g', supply')
      | .error e => (.error (.definition e), g.retarget id method, supply) := by
  obtain ⟨n, decl, found, kind⟩ := call
  rw [setCallMethod, found]
  dsimp only
  rw [kind]
  dsimp only
  rw [known]
  rfl

theorem setCallMethod_refused (refused : ¬ (g.IsCall id ∧ ∃ m, env.oracle.method? method = some m))
    (supply : IdSupply) :
    ∃ e, g.setCallMethod env id method supply = (.error e, g, supply) := by
  unfold setCallMethod
  split
  · exact ⟨_, rfl⟩
  · rename_i n found
    split
    · rename_i decl kind
      cases known : env.oracle.method? method with
      | none => exact ⟨_, rfl⟩
      | some m => exact absurd ⟨⟨n, decl, found, kind⟩, m, known⟩ refused
    · exact ⟨_, rfl⟩

/-- What a rebound call is: the node with the ports of the method, while all other nodes and all
variables are as they were and no edges are there but former ones. -/
structure Rebound (g g' : Graph) (id : NodeId) (method : MethodRef) (specs : List PortSpec)
    (n' : Node) : Prop where
  now : g'.node? id = some n'
  kind : n'.kind = .call (.plain method)
  title : n'.title = (NodeKind.call (.plain method)).defaultTitle
  shown : n'.Shows specs
  others : ∀ k, k ≠ id → g'.node? k = g.node? k
  order : g'.nodes.keys = g.nodes.keys
  edges : ∀ {k e}, g'.edge? k = some e → g.edge? k = some e
  vars : g'.vars = g.vars
  name : g'.name = g.name
  stencil : g'.stencil = g.stencil

theorem node?_retarget (found : g.node? id = some n) (method : MethodRef) :
    (g.retarget id method).node? id = some
      { n with
        kind := .call (.plain method)
        title := (NodeKind.call (.plain method)).defaultTitle } := by
  rw [retarget, node?_modifyNode, if_pos rfl, found]
  rfl

theorem Rebound.of_defineNode {specs : List PortSpec} (call : g.IsCall id)
    (defines : ∀ vars returnType,
      (NodeKind.call (.plain method)).definePorts env vars returnType = .ok specs)
    (run : (g.retarget id method).defineNode env id supply = .ok (g', supply')) :
    ∃ n', Rebound g g' id method specs n' := by
  obtain ⟨n, decl, found, -⟩ := call
  obtain ⟨specs', defined, rfl, -⟩ := defineNode_made (node?_retarget found method) run
  obtain rfl := Except.ok.inj ((defines _ _).symm.trans defined)
  have specified := realizePorts_specs id specs
    { n with
      kind := .call (.plain method)
      title := (NodeKind.call (.plain method)).defaultTitle : Node }.ports supply
  refine ⟨_, OrderedMap.get?_insert_self, rfl, rfl, Node.shows_withPorts _ _ specified,
    fun k other => ?_, ?_, fun {k e} held => ?_, rfl, rfl, rfl⟩
  · have others : (g.retarget id method).node? k = g.node? k := by
      rw [retarget, node?_modifyNode, if_neg other]
    exact (OrderedMap.get?_insert_of_ne other).trans others
  · have there : (g.retarget id method).nodes.keys = g.nodes.keys := OrderedMap.keys_modify
    refine OrderedMap.keys_insert.trans ?_
    rw [there, if_pos (OrderedMap.mem_keys_of_get? found)]
  · exact (Option.filter_eq_some_iff.mp (OrderedMap.get?_filter.symm.trans held)).1

theorem setCallMethod_of_apart (call : g.IsCall id) (known : env.oracle.method? method = some m)
    (single : duplicatePort? [] (callPorts m ∅) = none) (supply : IdSupply) :
    ∃ g' supply' specs n', g.setCallMethod env id method supply = (.ok (), g', supply') ∧
      (∀ vars returnType,
        (NodeKind.call (.plain method)).definePorts env vars returnType = .ok specs) ∧
      Rebound g g' id method specs n' := by
  have defines : ∀ vars returnType, (NodeKind.call (.plain method)).definePorts env vars returnType =
      .ok (callPorts m ∅) := fun vars returnType => definePorts_of_single known vars returnType single
  have ⟨n, _, found, _⟩ := call
  cases run : (g.retarget id method).defineNode env id supply with
  | error e =>
    cases (defines _ _).symm.trans ((defineNode_error_iff (node?_retarget found method)).mp run)
  | ok made =>
    obtain ⟨g', supply'⟩ := made
    obtain ⟨n', rebound⟩ := Rebound.of_defineNode call defines run
    refine ⟨g', supply', _, n', ?_, defines, rebound⟩
    rw [setCallMethod_of_known call known, run]

theorem setCallMethod_of_clash {p : PortSpec} (call : g.IsCall id)
    (known : env.oracle.method? method = some m)
    (twice : duplicatePort? [] (callPorts m ∅) = some p) (supply : IdSupply) :
    g.setCallMethod env id method supply =
      (.error (.definition (.duplicatePort p.name)), g.retarget id method, supply) := by
  have ⟨n, _, found, _⟩ := call
  have run : (g.retarget id method).defineNode env id supply = .error (.duplicatePort p.name) :=
    (defineNode_error_iff (node?_retarget found method)).mpr (definePorts_of_double known _ _ twice)
  rw [setCallMethod_of_known call known, run]

/-- Making a node call another method succeeds exactly where the node is a call, the method is known
and no two inputs of its calls share their name. The node has the ports of the method then, with no
type arguments, and no other node has changed. Otherwise nothing has changed, unless it was the names
that the call failed by: then the node has become a call of the method with the ports that it had. -/
theorem setCallMethod_outcome (g : Graph) (env : DefinitionEnv) (id : NodeId) (method : MethodRef)
    (supply : IdSupply) :
    let result := g.setCallMethod env id method supply
    (result.1 = .ok () ↔
      g.IsCall id ∧ ∃ m, env.oracle.method? method = some m ∧ m.NamesApart) ∧
    (∀ e, result.1 = .error e → result.2.2 = supply ∧ (result.2.1 = g ∨
      g.IsCall id ∧ result.2.1 = g.retarget id method ∧ ∃ m p, env.oracle.method? method = some m ∧
        ¬ m.NamesApart ∧ duplicatePort? [] (callPorts m ∅) = some p ∧
        e = .definition (.duplicatePort p.name))) ∧
    (result.1 = .ok () → ∃ specs n',
      (∀ vars returnType,
        (NodeKind.call (.plain method)).definePorts env vars returnType = .ok specs) ∧
      Rebound g result.2.1 id method specs n') := by
  intro result
  by_cases callable : g.IsCall id ∧ ∃ m, env.oracle.method? method = some m
  · obtain ⟨call, m, known⟩ := callable
    cases twice : duplicatePort? [] (callPorts m ∅) with
    | none =>
      have apart : m.NamesApart := (m.namesApart_iff ∅).mp twice
      obtain ⟨g', supply', specs, n', done, defines, rebound⟩ :=
        setCallMethod_of_apart call known twice supply
      rw [show result = _ from done]
      exact ⟨⟨fun _ => ⟨call, m, known, apart⟩, fun _ => rfl⟩, nofun,
        fun _ => ⟨specs, n', defines, rebound⟩⟩
    | some p =>
      have clash : ¬ m.NamesApart := by
        rw [← m.namesApart_iff ∅, twice]
        nofun
      rw [show result = _ from setCallMethod_of_clash call known twice supply]
      refine ⟨⟨nofun, fun ⟨_, m', known', apart⟩ => ?_⟩, fun e same => ⟨rfl, .inr ?_⟩, nofun⟩
      · obtain rfl := Option.some.inj (known.symm.trans known')
        exact absurd apart clash
      · exact ⟨call, rfl, m, p, known, clash, twice, (Except.error.inj same).symm⟩
  · obtain ⟨e, refused⟩ := setCallMethod_refused callable supply
    rw [show result = _ from refused]
    exact ⟨⟨nofun, fun ⟨call, m, known, _⟩ => absurd ⟨call, m, known⟩ callable⟩,
      fun _ _ => ⟨rfl, .inl rfl⟩, nofun⟩

/-- The standard types with a method that has two parameters of one name. -/
def doubledRegister : TypeDatabase :=
  TypeDatabase.standard.registerMethod
    (((MethodSignature.static "Mathf" "Step").param "a" "float").param "a" "float")

theorem setCallMethod_doubled : ¬ ∀ (g : Graph) (env : DefinitionEnv) (id : NodeId)
    (method : MethodRef) (supply supply' : IdSupply) (e : GraphError) (g' : Graph), g.WellFormed →
    g.setCallMethod env id method supply = (.error e, g', supply') → g' = g := by
  intro atomic
  let env : DefinitionEnv := ⟨doubledRegister.toOracle, ∅⟩
  let edits : List (DefinitionEnv × GraphEdit) := [(env, .spawnCall "Mathf" "Abs")]
  let work := (Workpiece.start "Doubled" .standard (.ofFamily 0)).after edits
  have lasts : work.2.next ≤ UInt64.size := by decide +kernel
  have tended : work.1.Tended work.2 := (Workpiece.after_tends edits _).tended lasts
    (Workpiece.start_tended "Doubled" .standard (.ofFamily 0))
  let rebound := work.1.setCallMethod env ⟨familyIdentity 0 0⟩ ⟨"Mathf", "Step"⟩ work.2
  have failed : rebound.1.isOk = false := by decide +kernel
  have titles : ¬ rebound.2.1.nodes.values.map (·.title) = work.1.nodes.values.map (·.title) := by
    decide +kernel
  obtain ⟨e, error⟩ : ∃ e, rebound.1 = .error e := by
    cases outcome : rebound.1 with
    | error e => exact ⟨e, rfl⟩
    | ok done =>
      rw [outcome] at failed
      cases failed
  have same := atomic work.1 env ⟨familyIdentity 0 0⟩ ⟨"Mathf", "Step"⟩ work.2 rebound.2.2 e
    rebound.2.1 tended.toWellFormed (Prod.ext error rfl)
  exact titles (by rw [same])

end Graph

end NodeScript
