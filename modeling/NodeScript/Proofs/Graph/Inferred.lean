import NodeScript.Proofs.Graph.Histories
import NodeScript.Proofs.Graph.InPlace
import NodeScript.Proofs.Typing.Storable

/-!
What inferring the types of a call leaves behind. The solver replaces variables in the slots of the
method, while the ports are defined from what was solved as it is stored: by its text, which is read
again. Both come to the same handles where the names of the register can be stored.
-/

namespace NodeScript

/-- What type arguments stand for when they are read again. -/
def readArguments (typeArguments : OrderedMap String TypeHandle) : Bindings :=
  .ofList (typeArguments.entries.filterMap fun (name, handle) =>
    handle.toType?.map fun t => (name, t))

theorem get?_readArguments {typeArguments : OrderedMap String TypeHandle} {k : String} :
    (readArguments typeArguments).get? k = (typeArguments.get? k).bind TypeHandle.toType? :=
  OrderedMap.get?_ofList_filterMap

/-- The handle of a slot under type arguments that are stored. -/
def slotHandle (typeArguments : OrderedMap String TypeHandle) (slot : TypeExpr) : TypeHandle :=
  .of (slot.substitute (readArguments typeArguments))

/-- What has been solved, as it is stored. -/
def Solution.stored (s : Solution) : OrderedMap String TypeHandle :=
  s.bindings.mapValues fun _ t => .of t

/-- A call with the types that have been solved. -/
def CallDecl.withArguments (decl : CallDecl) (s : Solution) : CallDecl :=
  { decl with typeArguments := s.stored }

/-- A slot shows what was solved when that has been stored and read again. -/
theorem slotHandle_stored {s : Solution} (storable : s.bindings.Storable) (slot : TypeExpr) :
    slotHandle s.stored slot = .of (slot.substitute s.bindings) := by
  refine TypeExpr.handle_eq_of_bare (TypeExpr.bare_substitute (fun k => ?_) slot)
  rw [get?_readArguments, Solution.stored, OrderedMap.get?_mapValues]
  cases held : s.bindings.get? k with
  | none => rfl
  | some t => exact (storable k t held).toType?_of

section CallPorts

variable (m : MethodSignature) (typeArguments : OrderedMap String TypeHandle)

theorem callPorts_eq : callPorts m typeArguments =
    (if m.isStatic then []
      else [.instanceInput "Instance" (slotHandle typeArguments m.declaringType)])
      ++ m.parameters.map (fun p => .dataInput p.name (slotHandle typeArguments p.type))
      ++ (if m.returnType.isVoid then []
        else [.dataOutput "Result" (slotHandle typeArguments m.returnType)]) := rfl

theorem callPorts_inputs :
    ((callPorts m typeArguments).filter (·.direction = .input)).map (·.type) =
      m.inputTypes.map (slotHandle typeArguments) := by
  have parameters : (m.parameters.map fun p =>
      PortSpec.dataInput p.name (slotHandle typeArguments p.type)).filter (·.direction = .input) =
        m.parameters.map fun p => .dataInput p.name (slotHandle typeArguments p.type) := by
    refine List.filter_eq_self.mpr fun spec member => ?_
    obtain ⟨p, -, rfl⟩ := List.mem_map.mp member
    rfl
  rw [callPorts_eq, List.filter_append, List.filter_append, parameters, MethodSignature.inputTypes]
  cases m.isStatic <;> cases m.returnType.isVoid <;>
    simp [PortSpec.instanceInput, PortSpec.dataInput, PortSpec.dataOutput]

theorem callPorts_outputs :
    (callPorts m typeArguments).filter (·.direction = .output) =
      if m.returnType.isVoid then []
      else [.dataOutput "Result" (slotHandle typeArguments m.returnType)] := by
  have parameters : (m.parameters.map fun p =>
      PortSpec.dataInput p.name (slotHandle typeArguments p.type)).filter (·.direction = .output) =
        [] := by
    refine List.filter_eq_nil_iff.mpr fun spec member => ?_
    obtain ⟨p, -, rfl⟩ := List.mem_map.mp member
    simp [PortSpec.dataInput]
  rw [callPorts_eq, List.filter_append, List.filter_append, parameters]
  cases m.isStatic <;> cases m.returnType.isVoid <;>
    simp [PortSpec.instanceInput, PortSpec.dataOutput]

end CallPorts

/-- The inputs of a call have the handles of their slots, and its result has the last one. -/
structure Node.ShowsSlots (n : Node) (m : MethodSignature) (handles : List TypeHandle) : Prop where
  inputs : n.inputs.map (·.type) = handles.dropLast
  void : m.returnType.isVoid = true → n.outputs = []
  result : m.returnType.isVoid = false → ∃ p, n.outputs = [p] ∧ p.name = "Result" ∧
    handles.getLast? = some p.type

/-- A node that shows the ports of a call has the handles of the slots. -/
theorem Node.Shows.slots {n : Node} {m : MethodSignature}
    {typeArguments : OrderedMap String TypeHandle} (shown : n.Shows (callPorts m typeArguments)) :
    n.ShowsSlots m (m.slotTypes.map (slotHandle typeArguments)) where
  inputs := by
    have inputs := congrArg (List.map PortSpec.type) shown.inputs
    rw [callPorts_inputs, List.map_map] at inputs
    rw [MethodSignature.slotTypes, List.map_append, List.map_singleton, List.dropLast_concat]
    exact inputs
  void void := by
    have outputs := shown.outputs
    rw [callPorts_outputs, if_pos void] at outputs
    exact List.map_eq_nil_iff.mp outputs
  result filled := by
    have outputs := shown.outputs
    rw [callPorts_outputs, filled, if_neg Bool.false_ne_true] at outputs
    obtain ⟨p, single, spec⟩ := List.map_eq_singleton_iff.mp outputs
    refine ⟨p, single, congrArg PortSpec.name spec, ?_⟩
    rw [MethodSignature.slotTypes, List.map_append, List.map_singleton, List.getLast?_concat]
    exact congrArg some (congrArg PortSpec.type spec).symm

/-- Adds a call of a method. -/
def GraphEdit.spawnCall (type method : String) : GraphEdit :=
  .spawn ⟨.call (.plain ⟨type, method⟩), rfl⟩ default

/-- Adds a node that reads a variable. -/
def GraphEdit.spawnGet (id : VariableId) : GraphEdit := .spawn ⟨.getVariable id, rfl⟩ default

namespace Graph

variable {g g' : Graph} {id : NodeId} {n : Node} {env : DefinitionEnv} {decl : CallDecl}
  {m : MethodSignature} {supply supply' : IdSupply} {db : TypeDatabase}

/-- The types that are connected to inputs, each with the slot of the input. -/
def connectedTypes (g : Graph) (oracle : TypeOracle) (node : NodeId) (inputs : List String)
    (index : Nat) : List (TypeExpr × Nat) :=
  (inputs.zipIdx index).filterMap fun (input, i) =>
    (g.inputType? oracle node input).map fun t => (t, i)

theorem solveInputs_eq_run (g : Graph) (oracle : TypeOracle) (m : MethodSignature) (node : NodeId)
    (index : Nat) (inputs : List String) (s : Solution) (failure : Option SolveError) :
    (g.solveInputs oracle m node index inputs s failure).1 =
      (g.connectedTypes oracle node inputs index).foldl
        (fun s call => (s.step oracle m call.1 call.2).1) s := by
  induction inputs generalizing index s failure with
  | nil => rfl
  | cons input rest ih =>
    cases connected : g.inputType? oracle node input with
    | none =>
      have skipped : g.connectedTypes oracle node (input :: rest) index =
          g.connectedTypes oracle node rest (index + 1) := by simp [connectedTypes, connected]
      rw [skipped, solveInputs, connected]
      exact ih (index + 1) s failure
    | some t =>
      have taken : g.connectedTypes oracle node (input :: rest) index =
          (t, index) :: g.connectedTypes oracle node rest (index + 1) := by
        simp [connectedTypes, connected]
      rw [taken, solveInputs, connected, List.foldl_cons]
      exact ih (index + 1) _ _

/-- A node that calls with other types. -/
def withCall (g : Graph) (id : NodeId) (decl : CallDecl) : Graph :=
  g.modifyNode id fun n => { n with kind := .call decl }

theorem node?_withCall (found : g.node? id = some n) :
    (g.withCall id decl).node? id = some { n with kind := .call decl } := by
  have here : (g.withCall id decl).node? id = _ := OrderedMap.get?_modify
  have there : g.nodes.get? id = some n := found
  rw [here, if_pos rfl, there]
  rfl

/-- The types that are solved for a call, and the first error. -/
def solveCall (g : Graph) (oracle : TypeOracle) (m : MethodSignature) (id : NodeId) (n : Node) :
    Solution × Option SolveError :=
  g.solveInputs oracle m id 0 (valueInputs n) m.unsolved none

/-- A call whose method is known and has variables is solved from what is connected to its inputs,
and its ports are defined anew. -/
theorem inferNode_of_generic (found : g.node? id = some n) (call : n.kind = .call decl)
    (known : env.oracle.method? decl.method = some m) (generic : m.isGeneric = true)
    (supply : IdSupply) : g.inferNode env id supply =
      let (s, failure) := g.solveCall env.oracle m id n
      let bound := g.withCall id (decl.withArguments s)
      match bound.defineNode env id supply with
      | .error e => (.error (.definition e), bound, supply)
      | .ok (g, supply) =>
        match failure with
        | some e => (.error (.solve e), g, supply)
        | none => (.ok s.bindings, g, supply) := by
  unfold inferNode
  rw [found]
  dsimp only
  rw [call]
  dsimp only
  rw [known]
  dsimp only
  rw [generic]
  rfl

/-- The ports that a call of a known method defines. -/
theorem callPorts_of_definePorts {specs : List PortSpec}
    {vars : OrderedMap VariableId VariableDecl} {returnType : Option TypeHandle}
    (known : env.oracle.method? decl.method = some m)
    (defined : (NodeKind.call decl).definePorts env vars returnType = .ok specs) :
    specs = callPorts m decl.typeArguments := by
  have declared := (NodeKind.definePorts_ok defined).1
  rw [NodeKind.declaredPorts, known] at declared
  exact (Except.ok.inj declared).symm

theorem connectedTypes_storable (storable : db.Storable) (g : Graph) (node : NodeId)
    (inputs : List String) (index : Nat) :
    ∀ call ∈ g.connectedTypes db.toOracle node inputs index, call.1.Storable := by
  intro call member
  obtain ⟨⟨input, i⟩, -, connected⟩ := List.mem_filterMap.mp member
  obtain ⟨t, typed, rfl⟩ := Option.map_eq_some_iff.mp connected
  obtain ⟨source, -, resolved⟩ := Option.bind_eq_some_iff.mp typed
  exact storable.resolve resolved

/-- Unless the ports of a call cannot be defined, its inputs have the handles that have been solved
for their slots, and its result has the last one. So it is whatever ports the call had before, and
whatever conflicts there have been. -/
theorem inferNode_shows_solution (storable : db.Storable) (oracle : env.oracle = db.toOracle)
    (found : g.node? id = some n) (call : n.kind = .call decl)
    (known : db.method? decl.method = some m) (generic : m.isGeneric = true)
    (supply : IdSupply) :
    let solved := m.solveAll db.toOracle (g.connectedTypes db.toOracle id (valueInputs n) 0)
    let inferred := g.inferNode env id supply
    (∃ e, inferred.1 = .error (.definition e)) ∨
      ∃ n', inferred.2.1.node? id = some n' ∧ n'.ShowsSlots m solved.handles := by
  intro solved inferred
  have run : (g.solveCall env.oracle m id n).1 = solved := by
    rw [solveCall, solveInputs_eq_run, oracle]
    rfl
  have stored : solved.bindings.Storable :=
    storable.solveAll m (connectedTypes_storable storable g id (valueInputs n) 0)
  have shows : solved.handles = m.slotTypes.map fun slot => .of (slot.substitute solved.bindings) :=
    (Solution.run_kept db.toOracle m _ m.unsolved_shows).1
  have handles : solved.handles = m.slotTypes.map (slotHandle solved.stored) := by
    rw [shows]
    exact List.map_congr_left fun slot _ => (slotHandle_stored stored slot).symm
  have known' : env.oracle.method? decl.method = some m := by rw [oracle]; exact known
  have result : inferred = _ := inferNode_of_generic found call known' generic supply
  rw [← Prod.eta (g.solveCall env.oracle m id n), run] at result
  dsimp only at result
  cases defined : (g.withCall id (decl.withArguments solved)).defineNode env id supply with
  | error e =>
    rw [defined] at result
    exact .inl ⟨e, congrArg Prod.fst result⟩
  | ok made =>
    obtain ⟨g', supply'⟩ := made
    obtain ⟨n', specs, found', -, -, specified, shown⟩ :=
      defineNode_shows (node?_withCall found) defined
    have known'' : env.oracle.method? (decl.withArguments solved).method = some m := known'
    obtain rfl := callPorts_of_definePorts known'' specified
    have graph : inferred.2.1 = g' := by
      rw [result, defined]
      dsimp only
      split <;> rfl
    exact .inr ⟨n', graph ▸ found', handles ▸ shown.slots⟩

/-- A variable of a type, the value of which is the argument of a call of `Enumerable.First`. -/
def firstOf (db : TypeDatabase) (type : TypeHandle) : Workpiece :=
  let id : VariableId := ⟨familyIdentity 1 0⟩
  let node (n : Nat) : NodeId := ⟨familyIdentity 0 n⟩
  (Workpiece.start "First" .standard (.ofFamily 0)).after <|
    [GraphEdit.addVariable ⟨id, "items", type, .field, false, none⟩,
      .spawnGet id, .spawnCall "Enumerable" "First",
      .connectByName (node 0) "Value" (node 2) "source"].map fun edit => (⟨db.toOracle, ∅⟩, edit)

/-- The method that is called in `firstOf`. -/
def firstMethod : MethodSignature :=
  ⟨.plain "Enumerable", "First", true, ["T"], [⟨"source", .named "IEnumerable" [.var "T"]⟩], .var "T"⟩

theorem inferNode_shows_solution_list :
    let db := TypeDatabase.standard
    let env : DefinitionEnv := ⟨db.toOracle, ∅⟩
    let work := firstOf db ⟨"List<int>"⟩
    let inferred := work.1.inferNode env ⟨familyIdentity 0 2⟩ work.2
    db.Storable ∧ db.method? ⟨"Enumerable", "First"⟩ = some firstMethod ∧
      ∃ n, inferred.2.1.node? ⟨familyIdentity 0 2⟩ = some n ∧
        n.ShowsSlots firstMethod [⟨"IEnumerable<int>"⟩, ⟨"int"⟩] := by
  intro db env work inferred
  have storable : db.Storable := by decide +kernel
  have known : db.method? ⟨"Enumerable", "First"⟩ = some firstMethod := by decide +kernel
  have call : (work.1.node? ⟨familyIdentity 0 2⟩).map (fun n => (n.kind, valueInputs n)) =
      some (.call (.plain ⟨"Enumerable", "First"⟩), ["source"]) := by decide +kernel
  have solved : (firstMethod.solveAll db.toOracle (work.1.connectedTypes db.toOracle
      ⟨familyIdentity 0 2⟩ ["source"] 0)).handles = [⟨"IEnumerable<int>"⟩, ⟨"int"⟩] := by
    decide +kernel
  have succeeds : inferred.1.isOk = true := by decide +kernel
  obtain ⟨n, found, same⟩ := Option.map_eq_some_iff.mp call
  obtain ⟨kind, values⟩ := Prod.mk.inj same
  refine ⟨storable, known, ?_⟩
  have agrees : env.oracle = db.toOracle := rfl
  have result : work.1.inferNode env ⟨familyIdentity 0 2⟩ work.2 = inferred := rfl
  have generic : firstMethod.isGeneric = true := by decide
  rcases inferNode_shows_solution storable agrees found kind known generic work.2
    with ⟨e, failed⟩ | ⟨n', found', shown⟩
  · have failed : inferred.1 = .error (.definition e) := failed
    rw [failed] at succeeds
    exact nomatch succeeds
  · rw [result] at found'
    rw [values, solved] at shown
    exact ⟨n', found', shown⟩

/-- A register with a type that converts to what can be iterated, but with a reserved word as the
type of the items. -/
def oddRegister : TypeDatabase :=
  TypeDatabase.standard.registerType
    ((TypeInfo.plain "Odd" .reference).withSupertype "IEnumerable<__UNKNOWN>")

/-- It is not enough that the names of the registered types and of the type that scripts run on can
be stored: what a type converts to may hold other names, and they are not read again. -/
theorem inferNode_shows_solution_reserved :
    ¬ ∀ (db : TypeDatabase) (g : Graph) (env : DefinitionEnv) (id : NodeId) (n : Node)
        (decl : CallDecl) (m : MethodSignature) (supply : IdSupply),
      (∀ name ∈ db.types.keys, IsStorableName name) → IsStorableName db.thisType →
      env.oracle = db.toOracle → g.node? id = some n → n.kind = .call decl →
      db.method? decl.method = some m → m.isGeneric = true →
      n.Shows (callPorts m decl.typeArguments) →
      let solved := m.solveAll db.toOracle (g.connectedTypes db.toOracle id (valueInputs n) 0)
      let inferred := g.inferNode env id supply
      (∃ e, inferred.1 = .error (.definition e)) ∨
        ∃ n', inferred.2.1.node? id = some n' ∧ n'.ShowsSlots m solved.handles := by
  intro always
  let work := firstOf oddRegister ⟨"Odd"⟩
  let inferred := work.1.inferNode ⟨oddRegister.toOracle, ∅⟩ ⟨familyIdentity 0 2⟩ work.2
  have known : oddRegister.method? ⟨"Enumerable", "First"⟩ = some firstMethod := by decide +kernel
  have call : (work.1.node? ⟨familyIdentity 0 2⟩).map (fun n => (n.kind, valueInputs n,
      decide (n.Shows (callPorts firstMethod ∅)))) =
      some (.call (.plain ⟨"Enumerable", "First"⟩), ["source"], true) := by decide +kernel
  have solved : (firstMethod.solveAll oddRegister.toOracle (work.1.connectedTypes
      oddRegister.toOracle ⟨familyIdentity 0 2⟩ ["source"] 0)).handles =
      [⟨"IEnumerable<__UNKNOWN>"⟩, ⟨"__UNKNOWN"⟩] := by decide +kernel
  have succeeds : inferred.1.isOk = true := by decide +kernel
  have ports : (inferred.2.1.node? ⟨familyIdentity 0 2⟩).map (fun n => n.inputs.map (·.type)) =
      some [⟨"IEnumerable<T>"⟩] := by decide +kernel
  obtain ⟨n, found, same⟩ := Option.map_eq_some_iff.mp call
  simp only [Prod.mk.injEq, decide_eq_true_eq] at same
  obtain ⟨kind, values, shown⟩ := same
  rcases always oddRegister work.1 ⟨oddRegister.toOracle, ∅⟩ _ n _ _ work.2 (by decide +kernel)
    (by decide +kernel) rfl found kind known rfl shown with ⟨e, failed⟩ | ⟨n', found', shown'⟩
  · have failed : inferred.1 = .error (.definition e) := failed
    rw [failed] at succeeds
    exact nomatch succeeds
  · have found' : inferred.2.1.node? ⟨familyIdentity 0 2⟩ = some n' := found'
    have inputs := shown'.inputs
    rw [values, solved] at inputs
    rw [found'] at ports
    exact absurd (inputs.symm.trans (Option.some.inj ports)) (by decide)

end Graph

end NodeScript
