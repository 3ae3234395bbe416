import NodeScript.Proofs.Graph.InPlace
import NodeScript.Proofs.Graph.Inferred

/-!
What inferring the types of a call comes to where calls have the ports of their kinds: a verdict, and
the call with other types, in place of the one that was there. Both follow from the call and from the
types that are connected to its inputs.
-/

namespace NodeScript

/-! ### The ports of calls -/

section CallPorts

variable {m : MethodSignature} {typeArguments typeArguments' : OrderedMap String TypeHandle}

theorem callPorts_inputsFirst (m : MethodSignature) (typeArguments : OrderedMap String TypeHandle) :
    InputsFirst (callPorts m typeArguments) := by
  refine ⟨_, _, callPorts_eq m typeArguments, fun spec member => ?_, fun spec member => ?_⟩
  · rcases List.mem_append.mp member with receiver | parameter
    · split at receiver
      · exact nomatch receiver
      · rw [List.mem_singleton.mp receiver]
        rfl
    · obtain ⟨p, -, rfl⟩ := List.mem_map.mp parameter
      rfl
  · split at member
    · exact nomatch member
    · rw [List.mem_singleton.mp member]
      rfl

/-- Type arguments settle the types of the ports of a call and nothing else. -/
theorem shape_callPorts (m : MethodSignature) (typeArguments typeArguments' : OrderedMap String TypeHandle) :
    (callPorts m typeArguments).map PortSpec.shape = (callPorts m typeArguments').map PortSpec.shape := by
  simp only [callPorts_eq, List.map_append, List.map_map]
  refine congrArg₂ _ (congrArg₂ _ ?_ rfl) ?_ <;> split <;> rfl

theorem label_callPorts (m : MethodSignature) (typeArguments typeArguments' : OrderedMap String TypeHandle) :
    (callPorts m typeArguments).map (fun spec => (spec.direction, spec.name)) =
      (callPorts m typeArguments').map fun spec => (spec.direction, spec.name) :=
  labels_of_shapes (shape_callPorts m typeArguments typeArguments')

/-- Whether a port is there twice is a matter of directions and names. -/
theorem duplicatePort?_isNone_congr {seen : List (PortDirection × String)} {specs specs' : List PortSpec}
    (same : specs.map (fun spec => (spec.direction, spec.name)) =
      specs'.map fun spec => (spec.direction, spec.name)) :
    (duplicatePort? seen specs).isNone = (duplicatePort? seen specs').isNone := by
  induction specs generalizing seen specs' with
  | nil => rw [List.map_eq_nil_iff.mp same.symm]
  | cons spec rest ih =>
    cases specs' with
    | nil => exact nomatch same
    | cons spec' rest' =>
      obtain ⟨first, others⟩ := List.cons.inj same
      have first : (spec.direction, spec.name) = (spec'.direction, spec'.name) := first
      rw [duplicatePort?, duplicatePort?, first]
      split
      · rfl
      · exact ih others

theorem duplicatePort?_callPorts (single : duplicatePort? [] (callPorts m typeArguments) = none) :
    duplicatePort? [] (callPorts m typeArguments') = none := by
  rw [← Option.isNone_iff_eq_none] at single ⊢
  rw [← single]
  exact duplicatePort?_isNone_congr (label_callPorts ..)

/-- Calls that are the same apart from the order of type arguments have the same ports. -/
theorem callPorts_of_agrees {decl decl' : CallDecl} (agrees : decl.agrees decl' = true)
    (m : MethodSignature) : callPorts m decl.typeArguments = callPorts m decl'.typeArguments := by
  simp only [CallDecl.agrees, Bool.and_eq_true, decide_eq_true_eq, List.all_eq_true] at agrees
  obtain ⟨⟨-, size⟩, within⟩ := agrees
  have handles : slotHandle decl.typeArguments = slotHandle decl'.typeArguments := by
    funext slot
    refine congrArg TypeHandle.of (TypeExpr.substitute_congr (fun k => ?_) slot)
    rw [get?_readArguments, get?_readArguments, OrderedMap.get?_eq_of_size size within k]
  rw [callPorts_eq, callPorts_eq, handles]

theorem CallDecl.agrees_refl (decl : CallDecl) : decl.agrees decl = true := by
  simp only [agrees, decide_true, Bool.true_and, List.all_eq_true, decide_eq_true_eq]
  exact fun e member => OrderedMap.get?_eq_some_iff.mpr member

end CallPorts

/-! ### One call -/

theorem NodeKind.exists_of_call? {kind : NodeKind} (isCall : kind.call?.isSome = true) :
    ∃ decl, kind = .call decl := by
  cases kind with
  | call decl => exact ⟨decl, rfl⟩
  | _ => exact absurd isCall Bool.false_ne_true

/-- What is said when types have been solved: that the ports cannot be told, or else that a type did
not fit, or else what was solved. -/
def Solution.verdict (s : Solution) (m : MethodSignature) (failure : Option SolveError) :
    Except InferenceError Bindings :=
  match duplicatePort? [] (callPorts m s.stored) with
  | some p => .error (.definition (.duplicatePort p.name))
  | none =>
    match failure with
    | some e => .error (.solve e)
    | none => .ok s.bindings

/-- What there is of a node regardless of types: its identity, its ports, and whether it is a call. -/
structure NodeLayout where
  id : NodeId
  inputs : List Port
  outputs : List Port
  isCall : Bool

namespace Node

/-- A call with the types that have been solved, and with ports of these types if they can be told.
-/
def solved (n : Node) (oracle : TypeOracle) (decl : CallDecl) (m : MethodSignature) (s : Solution) :
    Node :=
  let bound : Node := { n with kind := .call (decl.withArguments s) }
  match duplicatePort? [] (callPorts m s.stored) with
  | some _ => bound
  | none => bound.withPorts oracle (n.ports.zipWith Port.retype (callPorts m s.stored))

/-- If the node is a call whose ports can be told, it shows them. -/
def ShowsCall (n : Node) (oracle : TypeOracle) : Prop :=
  ∀ decl m, n.kind = .call decl → oracle.method? decl.method = some m →
    duplicatePort? [] (callPorts m decl.typeArguments) = none →
    n.Shows (callPorts m decl.typeArguments)

/-- The layout of a node. -/
def layout (n : Node) : NodeLayout :=
  ⟨n.id, n.inputs.map Port.untyped, n.outputs.map Port.untyped, n.kind.call?.isSome⟩

variable {n : Node} {oracle : TypeOracle} {decl : CallDecl} {m : MethodSignature} {s : Solution}
  {specs : List PortSpec}

/-- The inputs of a node that shows specifications are told by the way they face. -/
theorem Shows.facing (shown : n.Shows specs) :
    n.ports.filter (·.direction = .input) = n.inputs ∧
      n.ports.filter (·.direction = .output) = n.outputs := by
  refine filter_facing (fun p member => ?_) fun p member => ?_
  · have specified : p.spec ∈ specs.filter (·.direction = .input) :=
      shown.inputs ▸ List.mem_map_of_mem member
    exact of_decide_eq_true (List.mem_filter.mp specified).2
  · have specified : p.spec ∈ specs.filter (·.direction = .output) :=
      shown.outputs ▸ List.mem_map_of_mem member
    exact of_decide_eq_true (List.mem_filter.mp specified).2

theorem solved_of_double {p : PortSpec} (double : duplicatePort? [] (callPorts m s.stored) = some p) :
    n.solved oracle decl m s = { n with kind := .call (decl.withArguments s) } := by
  rw [solved, double]

/-- The ports of a call whose types have been solved are those that it had, with other types. -/
theorem solved_of_single (oracle : TypeOracle) (shown : n.Shows (callPorts m decl.typeArguments))
    (single : duplicatePort? [] (callPorts m s.stored) = none) :
    let ports := n.ports.zipWith Port.retype (callPorts m s.stored)
    n.solved oracle decl m s =
        ({ n with kind := .call (decl.withArguments s) } : Node).withPorts oracle ports ∧
      ports.map Port.spec = callPorts m s.stored ∧
      ports.map Port.untyped = n.ports.map Port.untyped := by
  have shapes : n.ports.map Port.shape = (callPorts m s.stored).map PortSpec.shape :=
    (shapes_of_specs (shown.in_order (callPorts_inputsFirst ..))).trans (shape_callPorts ..)
  refine ⟨?_, map_spec_zipWith shapes, map_untyped_zipWith shapes⟩
  rw [solved, single]

theorem kind_solved : (n.solved oracle decl m s).kind = .call (decl.withArguments s) := by
  unfold solved
  dsimp only
  split <;> rfl

theorem solved_showsCall (known : oracle.method? decl.method = some m)
    (shown : duplicatePort? [] (callPorts m s.stored) = none →
      n.Shows (callPorts m decl.typeArguments)) :
    (n.solved oracle decl m s).ShowsCall oracle := by
  intro decl' m' call known' single
  obtain rfl := NodeKind.call.inj (kind_solved.symm.trans call)
  obtain rfl := Option.some.inj (known.symm.trans known')
  obtain ⟨made, specified, -⟩ := solved_of_single oracle (shown single) single
  rw [made]
  exact shows_withPorts _ oracle specified

/-- To solve a call again with the same result changes nothing. -/
theorem solved_again (shown : duplicatePort? [] (callPorts m s.stored) = none →
      n.Shows (callPorts m decl.typeArguments)) :
    (n.solved oracle decl m s).solved oracle (decl.withArguments s) m s = n.solved oracle decl m s := by
  cases double : duplicatePort? [] (callPorts m s.stored) with
  | some p => rw [solved_of_double double, solved_of_double double]; rfl
  | none =>
    obtain ⟨made, specified, -⟩ := solved_of_single oracle (shown double) double
    rw [solved, double]
    dsimp only
    rw [made, ports_withPorts _ oracle specified (callPorts_inputsFirst ..),
      zipWith_retype_self specified]
    exact withPorts_again { n with kind := .call (decl.withArguments s) } oracle _

theorem layout_solved (call : n.kind = .call decl)
    (shown : duplicatePort? [] (callPorts m s.stored) = none →
      n.Shows (callPorts m decl.typeArguments)) :
    (n.solved oracle decl m s).layout = n.layout := by
  cases double : duplicatePort? [] (callPorts m s.stored) with
  | some p =>
    rw [solved_of_double double, layout, layout, call]
    rfl
  | none =>
    obtain ⟨made, -, untyped⟩ := solved_of_single oracle (shown double) double
    have parts : ∀ direction, ((n.ports.zipWith Port.retype (callPorts m s.stored)).filter
        (·.direction = direction)).map Port.untyped =
          (n.ports.filter (·.direction = direction)).map Port.untyped := by
      intro direction
      have filtered := congrArg (List.filter (·.direction = direction)) untyped
      rwa [List.filter_map, List.filter_map] at filtered
    obtain ⟨inputs, outputs⟩ := (shown double).facing
    have front := parts .input
    have back := parts .output
    rw [inputs] at front
    rw [outputs] at back
    rw [made, layout, layout, call, NodeLayout.mk.injEq]
    exact ⟨rfl, front, back, rfl⟩

/-- The ports stay as they are where the type arguments do. -/
theorem ports_solved_of_agrees
    (shown : duplicatePort? [] (callPorts m s.stored) = none →
      n.Shows (callPorts m decl.typeArguments))
    (agrees : decl.agrees (decl.withArguments s) = true) :
    (n.solved oracle decl m s).ports = n.ports := by
  cases double : duplicatePort? [] (callPorts m s.stored) with
  | some p => rw [solved_of_double double]; rfl
  | none =>
    obtain ⟨made, specified, -⟩ := solved_of_single oracle (shown double) double
    have same : callPorts m decl.typeArguments = callPorts m s.stored := callPorts_of_agrees agrees m
    have former : n.ports.map Port.spec = callPorts m s.stored :=
      same ▸ (shown double).in_order (callPorts_inputsFirst ..)
    rw [made, ports_withPorts _ oracle specified (callPorts_inputsFirst ..),
      zipWith_retype_self former]

end Node

namespace Graph

/-! ### Where types come from -/

/-- The port whose value comes in at an input. -/
def inputOrigin? (g : Graph) (node : NodeId) (input : String) : Option PortRef := do
  let port ← (g.node? node).bind fun n => (n.input? input).map (·.id)
  let edge ← (g.edgesTo port).head?
  return edge.output

/-- The type of a port. -/
def typeAt? (g : Graph) (ref : PortRef) : Option TypeHandle :=
  ((g.node? ref.node).bind fun n => n.port? ref.port).map (·.type)

/-- Which input has a name is a matter of everything but types. -/
theorem input_id?_congr {n n' : Node} (inputs : n'.inputs.map Port.untyped = n.inputs.map Port.untyped)
    (input : String) : (n'.input? input).map (·.id) = (n.input? input).map (·.id) := by
  have found := congrArg (List.find? (·.name = input)) inputs
  rw [List.find?_map, List.find?_map] at found
  have ids := congrArg (Option.map Port.id) found
  rwa [Option.map_map, Option.map_map] at ids

/-- The graphs are the same up to types: they have the same edges, and nodes with the same ports. -/
structure Retyped (g g' : Graph) : Prop where
  edges : g'.edges = g.edges
  nodes : ∀ k, (g'.node? k).map Node.layout = (g.node? k).map Node.layout

theorem Retyped.refl (g : Graph) : g.Retyped g := ⟨rfl, fun _ => rfl⟩

variable {g g' g'' : Graph} {id a b : NodeId} {n : Node} {env : DefinitionEnv} {oracle : TypeOracle}

theorem Retyped.trans (first : g.Retyped g') (second : g'.Retyped g'') : g.Retyped g'' :=
  ⟨second.edges.trans first.edges, fun k => (second.nodes k).trans (first.nodes k)⟩

theorem Retyped.symm (retyped : g.Retyped g') : g'.Retyped g :=
  ⟨retyped.edges.symm, fun k => (retyped.nodes k).symm⟩

theorem Retyped.node (retyped : g.Retyped g') (found : g.node? id = some n) :
    ∃ n', g'.node? id = some n' ∧ n'.layout = n.layout := by
  have same := retyped.nodes id
  rw [found] at same
  exact Option.map_eq_some_iff.mp same

theorem inputType?_eq (g : Graph) (oracle : TypeOracle) (node : NodeId) (input : String) :
    g.inputType? oracle node input =
      ((g.inputOrigin? node input).bind g.typeAt?).bind oracle.resolve := by
  simp [inputType?, inputSource?, inputOrigin?, typeAt?, Option.bind_assoc, Option.bind_map]

theorem Retyped.inputOrigin? (retyped : g.Retyped g') (node : NodeId) (input : String) :
    g'.inputOrigin? node input = g.inputOrigin? node input := by
  have ports : ((g'.node? node).bind fun n => (n.input? input).map (·.id)) =
      (g.node? node).bind fun n => (n.input? input).map (·.id) := by
    cases found : g.node? node with
    | none =>
      have same := retyped.nodes node
      rw [found] at same
      rw [Option.map_eq_none_iff.mp same]
    | some n =>
      obtain ⟨n', found', same⟩ := retyped.node found
      have inputs : n'.inputs.map Port.untyped = n.inputs.map Port.untyped :=
        congrArg NodeLayout.inputs same
      rw [found']
      exact input_id?_congr inputs input
  simp only [Graph.inputOrigin?, ports, Graph.edgesTo, retyped.edges]

/-! ### Verdicts -/

/-- What comes of inferring a node: the verdict, and what the node is then. -/
def judge (g : Graph) (env : DefinitionEnv) (id : NodeId) (n : Node) :
    Except InferenceError Bindings × Node :=
  match n.kind with
  | .call decl =>
    match env.oracle.method? decl.method with
    | none => (.error (.definition (.unknownMethod decl.method)), n)
    | some m =>
      if m.isGeneric then
        let (s, failure) := g.solveCall env.oracle m id n
        (s.verdict m failure, n.solved env.oracle decl m s)
      else (.ok ∅, n)
  | _ => (.error (.notAFunctionCall id), n)

/-- The verdict on a node. -/
def verdict (g : Graph) (env : DefinitionEnv) (id : NodeId) : Except InferenceError Bindings :=
  match g.node? id with
  | some n => (g.judge env id n).1
  | none => .error (.definition (.nodeNotFound id))

/-- The graph when a node has been inferred. -/
def inferred (g : Graph) (env : DefinitionEnv) (id : NodeId) : Graph :=
  g.modifyNode id fun n => (g.judge env id n).2

/-- The calls of a graph have the ports that their kinds define, if those can be told. -/
def ShowsCalls (g : Graph) (env : DefinitionEnv) : Prop :=
  ∀ id n, g.node? id = some n → n.kind.call?.isSome = true → ∀ specs,
    n.kind.definePorts env g.vars (g.returnTypeOf? id) = .ok specs → n.Shows specs

section Defining

variable {decl : CallDecl} {m : MethodSignature} (known : env.oracle.method? decl.method = some m)
  (vars : OrderedMap VariableId VariableDecl) (returnType : Option TypeHandle)

include known

/-- The ports of a call are those of its method. -/
theorem definePorts_of_single (single : duplicatePort? [] (callPorts m decl.typeArguments) = none) :
    (NodeKind.call decl).definePorts env vars returnType = .ok (callPorts m decl.typeArguments) := by
  simp only [NodeKind.definePorts, NodeKind.declaredPorts, known, single]

/-- The ports of a call cannot be told when one is there twice. -/
theorem definePorts_of_double {p : PortSpec}
    (double : duplicatePort? [] (callPorts m decl.typeArguments) = some p) :
    (NodeKind.call decl).definePorts env vars returnType = .error (.duplicatePort p.name) := by
  simp only [NodeKind.definePorts, NodeKind.declaredPorts, known, double]

end Defining

theorem showsCalls_iff :
    g.ShowsCalls env ↔ ∀ id n, g.node? id = some n → n.ShowsCall env.oracle := by
  constructor
  · intro shows id n found decl m call known single
    refine shows id n found (by rw [call]; rfl) _ ?_
    rw [call, definePorts_of_single known _ _ single]
  · intro shows id n found isCall specs defined
    obtain ⟨decl, call⟩ := NodeKind.exists_of_call? isCall
    rw [call] at defined
    cases known : env.oracle.method? decl.method with
    | none => simp [NodeKind.definePorts, NodeKind.declaredPorts, known] at defined
    | some m =>
      cases double : duplicatePort? [] (callPorts m decl.typeArguments) with
      | some p =>
        rw [definePorts_of_double known _ _ double] at defined
        cases defined
      | none =>
        rw [definePorts_of_single known _ _ double] at defined
        exact Except.ok.inj defined ▸ shows id n found decl m call known double

theorem inferred_eq (found : g.node? id = some n) :
    g.inferred env id = { g with nodes := g.nodes.insert id (g.judge env id n).2 } := by
  rw [inferred, modifyNode, OrderedMap.modify_of_get? found]

theorem inferred_of_judge (found : g.node? id = some n) (same : (g.judge env id n).2 = n) :
    g.inferred env id = g := by
  rw [inferred_eq found, same, OrderedMap.insert_of_get? found]

theorem judge_of_not_call (other : ∀ decl, n.kind ≠ .call decl) :
    g.judge env id n = (.error (.notAFunctionCall id), n) := by
  unfold judge
  split
  · rename_i decl call
    exact absurd call (other decl)
  · rfl

theorem judge_of_unknown {decl : CallDecl} (call : n.kind = .call decl)
    (unknown : env.oracle.method? decl.method = none) :
    g.judge env id n = (.error (.definition (.unknownMethod decl.method)), n) := by
  simp only [judge, call, unknown]

theorem judge_of_plain {decl : CallDecl} {m : MethodSignature} (call : n.kind = .call decl)
    (known : env.oracle.method? decl.method = some m) (plain : m.isGeneric = false) :
    g.judge env id n = (.ok ∅, n) := by
  simp only [judge, call, known, plain, Bool.false_eq_true, if_false]

theorem judge_of_generic {decl : CallDecl} {m : MethodSignature} (call : n.kind = .call decl)
    (known : env.oracle.method? decl.method = some m) (generic : m.isGeneric = true) :
    g.judge env id n = ((g.solveCall env.oracle m id n).1.verdict m (g.solveCall env.oracle m id n).2,
      n.solved env.oracle decl m (g.solveCall env.oracle m id n).1) := by
  simp only [judge, call, known, generic, if_true]

/-- A node is no call, or its method is unknown or has no variables, and then it stays what it is; or
it is a call that is solved. -/
theorem judge_cases (g : Graph) (env : DefinitionEnv) (id : NodeId) (n : Node) :
    ((g.judge env id n).2 = n ∧ ∀ g' : Graph, g'.judge env id n = g.judge env id n) ∨
    ∃ decl m, n.kind = .call decl ∧ env.oracle.method? decl.method = some m ∧ m.isGeneric = true := by
  by_cases isCall : ∃ decl, n.kind = .call decl
  · obtain ⟨decl, call⟩ := isCall
    cases known : env.oracle.method? decl.method with
    | none => simp only [judge_of_unknown call known]; simp
    | some m =>
      cases generic : m.isGeneric with
      | false => simp only [judge_of_plain call known generic]; simp
      | true => exact .inr ⟨decl, m, call, known, generic⟩
  · have other : ∀ decl, n.kind ≠ .call decl := fun decl call => isCall ⟨decl, call⟩
    simp only [judge_of_not_call other]
    simp

section Solving

variable {decl : CallDecl} {m : MethodSignature} {s : Solution} (found : g.node? id = some n)
  (known : env.oracle.method? decl.method = some m)

include found

theorem withCall_nodes :
    (g.withCall id decl).nodes = g.nodes.insert id { n with kind := .call decl } := by
  rw [withCall, modifyNode]
  exact OrderedMap.modify_of_get? found

include known

/-- A call with types that have been solved keeps its ports when they cannot be told. -/
theorem defineNode_of_double {p : PortSpec}
    (double : duplicatePort? [] (callPorts m s.stored) = some p) (supply : IdSupply) :
    (g.withCall id (decl.withArguments s)).defineNode env id supply =
        .error (.duplicatePort p.name) ∧
      g.withCall id (decl.withArguments s) =
        { g with nodes := g.nodes.insert id (n.solved env.oracle decl m s) } := by
  have known' : env.oracle.method? (decl.withArguments s).method = some m := known
  constructor
  · exact (defineNode_error_iff (node?_withCall found)).mpr (definePorts_of_double known' _ _ double)
  · rw [Node.solved_of_double double, ← withCall_nodes found]
    rfl

/-- A call with types that have been solved is put in place, and nothing vanishes. -/
theorem defineNode_of_single (shown : n.Shows (callPorts m decl.typeArguments))
    (single : duplicatePort? [] (callPorts m s.stored) = none) (supply : IdSupply) :
    (g.withCall id (decl.withArguments s)).defineNode env id supply =
      .ok ({ g with nodes := g.nodes.insert id (n.solved env.oracle decl m s) }, supply) := by
  have shapes : n.ports.map Port.shape = (callPorts m s.stored).map PortSpec.shape :=
    (shapes_of_specs (shown.in_order (callPorts_inputsFirst ..))).trans (shape_callPorts ..)
  have realized := realizePorts_in_place id supply (.refl n.ports) shapes
    (duplicatePort?_eq_none single).2
  have known' : env.oracle.method? (decl.withArguments s).method = some m := known
  rw [defineNode_in_place (node?_withCall found) (definePorts_of_single known' _ _ single) realized,
    withCall_nodes found, OrderedMap.insert_insert, Node.solved, single]
  rfl

end Solving

/-- Inferring a node gives the verdict and puts the node in place, and it takes nothing from the
supply. -/
theorem inferNode_eq (shows : g.ShowsCalls env) (id : NodeId) (supply : IdSupply) :
    g.inferNode env id supply = (g.verdict env id, g.inferred env id, supply) := by
  cases found : g.node? id with
  | none =>
    have absent : g.nodes.get? id = none := found
    simp only [inferNode, verdict, inferred, modifyNode, OrderedMap.modify, found, absent]
  | some n =>
    have said : g.verdict env id = (g.judge env id n).1 := by rw [verdict, found]
    by_cases isCall : ∃ decl, n.kind = .call decl
    · obtain ⟨decl, call⟩ := isCall
      cases known : env.oracle.method? decl.method with
      | none =>
        have judged : g.judge env id n = _ := judge_of_unknown call known
        rw [said, inferred_of_judge found (by rw [judged]), judged]
        simp only [inferNode, found, call, known]
      | some m =>
        cases generic : m.isGeneric with
        | false =>
          have judged : g.judge env id n = _ := judge_of_plain call known generic
          rw [said, inferred_of_judge found (by rw [judged]), judged]
          simp only [inferNode, found, call, known, generic, Bool.not_false, if_true]
        | true =>
          have shown := showsCalls_iff.mp shows id n found decl m call known
          have judged : g.judge env id n = _ := judge_of_generic call known generic
          rw [said, inferred_eq found, judged, inferNode_of_generic found call known generic supply]
          generalize g.solveCall env.oracle m id n = result
          obtain ⟨s, failure⟩ := result
          cases double : duplicatePort? [] (callPorts m s.stored) with
          | some p =>
            obtain ⟨failed, kept⟩ := defineNode_of_double found known double supply
            rw [← kept]
            simp only [failed, Solution.verdict, double]
          | none =>
            have defined := defineNode_of_single found known (shown (duplicatePort?_callPorts double))
              double supply
            simp only [defined, Solution.verdict, double]
            cases failure <;> rfl
    · have judged : g.judge env id n = _ := judge_of_not_call fun decl call => isCall ⟨decl, call⟩
      rw [said, inferred_of_judge found (by rw [judged]), judged]
      unfold inferNode
      rw [found]
      dsimp only
      split
      · rename_i decl call
        exact absurd ⟨decl, call⟩ isCall
      · rfl

end Graph

end NodeScript
