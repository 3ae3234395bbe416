import NodeScript.Proofs.Graph.Verdicts

/-!
Calls at rest. A call rests when inferring it again leaves it as it is. It comes to rest when it is
inferred, unless its own value comes back to it with another type, and it stays at rest as long as no
call that feeds it comes to have other types.
-/

namespace NodeScript

namespace Graph

variable {g g' : Graph} {id a b : NodeId} {n n' : Node} {env : DefinitionEnv} {oracle : TypeOracle}

/-- Inferring a node leaves it as it is. -/
def Rests (g : Graph) (env : DefinitionEnv) (id : NodeId) : Prop :=
  ∀ n, g.node? id = some n → (g.judge env id n).2 = n

theorem Rests.inferred_eq (rests : g.Rests env id) : g.inferred env id = g := by
  cases found : g.node? id with
  | none =>
    have absent : g.nodes.get? id = none := found
    simp only [inferred, modifyNode, OrderedMap.modify, absent]
  | some n => exact inferred_of_judge found (rests n found)

theorem node?_inferred {k : NodeId} : (g.inferred env id).node? k =
    if k = id then (g.node? id).map fun n => (g.judge env id n).2 else g.node? k :=
  node?_modifyNode

/-! ### What inference keeps -/

theorem layout_judge (shown : n.ShowsCall env.oracle) : (g.judge env id n).2.layout = n.layout := by
  rcases judge_cases g env id n with ⟨same, -⟩ | ⟨decl, m, call, known, generic⟩
  · rw [same]
  · rw [judge_of_generic call known generic]
    exact Node.layout_solved call fun single =>
      shown decl m call known (duplicatePort?_callPorts single)

theorem showsCall_judge (shown : n.ShowsCall env.oracle) :
    (g.judge env id n).2.ShowsCall env.oracle := by
  rcases judge_cases g env id n with ⟨same, -⟩ | ⟨decl, m, call, known, generic⟩
  · rwa [same]
  · rw [judge_of_generic call known generic]
    exact Node.solved_showsCall known fun single =>
      shown decl m call known (duplicatePort?_callPorts single)

theorem ShowsCalls.retyped (shows : g.ShowsCalls env) (id : NodeId) :
    g.Retyped (g.inferred env id) := by
  refine ⟨rfl, fun k => ?_⟩
  rw [node?_inferred]
  split
  · rename_i here
    rw [here]
    cases found : g.node? id with
    | none => rfl
    | some n => exact congrArg some (layout_judge (showsCalls_iff.mp shows id n found))
  · rfl

theorem ShowsCalls.inferred (shows : g.ShowsCalls env) (id : NodeId) :
    (g.inferred env id).ShowsCalls env := by
  refine showsCalls_iff.mpr fun k n found => ?_
  rw [node?_inferred] at found
  split at found
  · obtain ⟨n, there, rfl⟩ := Option.map_eq_some_iff.mp found
    exact showsCall_judge (showsCalls_iff.mp shows id n there)
  · exact showsCalls_iff.mp shows k n found

/-! ### What a verdict depends on -/

/-- The same types come in at a node in two graphs. -/
def SameInputs (g g' : Graph) (oracle : TypeOracle) (node : NodeId) : Prop :=
  ∀ input, g'.inputType? oracle node input = g.inputType? oracle node input

theorem SameInputs.refl (g : Graph) (oracle : TypeOracle) (node : NodeId) :
    g.SameInputs g oracle node := fun _ => rfl

theorem SameInputs.solveInputs (same : g.SameInputs g' oracle id) (m : MethodSignature)
    (index : Nat) (inputs : List String) (s : Solution) (failure : Option SolveError) :
    g'.solveInputs oracle m id index inputs s failure =
      g.solveInputs oracle m id index inputs s failure := by
  induction inputs generalizing index s failure with
  | nil => rfl
  | cons input rest ih =>
    rw [Graph.solveInputs, Graph.solveInputs, same input]
    split
    · exact ih ..
    · exact ih ..

theorem valueInputs_congr (inputs : n'.inputs.map Port.untyped = n.inputs.map Port.untyped) :
    valueInputs n' = valueInputs n := by
  have untyped : ∀ n : Node, valueInputs n =
      ((n.inputs.map Port.untyped).filter (·.kind ≠ .execution)).map (·.name) := by
    intro n
    rw [valueInputs, List.filter_map, List.map_map]
    rfl
  rw [untyped, untyped, inputs]

/-- A verdict follows from the node and the types that come in. -/
theorem SameInputs.judge (same : g.SameInputs g' env.oracle id) :
    g'.judge env id n = g.judge env id n := by
  rcases judge_cases g env id n with ⟨-, alike⟩ | ⟨decl, m, call, known, generic⟩
  · exact alike g'
  · have solved : g'.solveCall env.oracle m id n = g.solveCall env.oracle m id n :=
      same.solveInputs m 0 _ _ _
    rw [judge_of_generic call known generic, judge_of_generic call known generic, solved]

/-- To infer a node again when the same types come in has the same outcome. -/
theorem SameInputs.judge_again (same : g.SameInputs g' env.oracle id) (shown : n.ShowsCall env.oracle) :
    g'.judge env id (g.judge env id n).2 = g.judge env id n := by
  rcases judge_cases g env id n with ⟨unchanged, alike⟩ | ⟨decl, m, call, known, generic⟩
  · rw [unchanged, alike g']
  · have shown' : ∀ s : Solution, duplicatePort? [] (callPorts m s.stored) = none →
        n.Shows (callPorts m decl.typeArguments) := fun s single =>
      shown decl m call known (duplicatePort?_callPorts single)
    rw [judge_of_generic call known generic]
    generalize result : g.solveCall env.oracle m id n = solution
    obtain ⟨s, failure⟩ := solution
    have known' : env.oracle.method? (decl.withArguments s).method = some m := known
    have layout : (n.solved env.oracle decl m s).layout = n.layout :=
      Node.layout_solved call (shown' s)
    have inputs : valueInputs (n.solved env.oracle decl m s) = valueInputs n :=
      valueInputs_congr (congrArg NodeLayout.inputs layout)
    have again : g'.solveCall env.oracle m id (n.solved env.oracle decl m s) = (s, failure) := by
      rw [solveCall, inputs, same.solveInputs m 0 _ _ _]
      exact result
    rw [judge_of_generic Node.kind_solved known' generic, again]
    exact Prod.ext rfl (Node.solved_again (shown' s))

/-- A node rests when it has been inferred, and the verdict stands, if the same types come in. -/
theorem rests_inferred (shows : g.ShowsCalls env)
    (same : g.SameInputs (g.inferred env id) env.oracle id) :
    (g.inferred env id).Rests env id ∧ (g.inferred env id).verdict env id = g.verdict env id := by
  have here : (g.inferred env id).node? id = (g.node? id).map fun n => (g.judge env id n).2 := by
    rw [node?_inferred, if_pos rfl]
  cases found : g.node? id with
  | none =>
    rw [found] at here
    refine ⟨fun n found' => ?_, ?_⟩
    · rw [here] at found'
      exact nomatch found'
    · rw [verdict, verdict, here, found]
      rfl
  | some n =>
    rw [found] at here
    have again := same.judge_again (showsCalls_iff.mp shows id n found)
    refine ⟨fun n' found' => ?_, ?_⟩
    · rw [here] at found'
      obtain rfl := Option.some.inj found'
      rw [again]
    · rw [verdict, verdict, here, found]
      exact congrArg Prod.fst again

/-- A node rests, and the verdict stands, as before if another one is inferred and the same types come
in. -/
theorem rests_inferred_other (other : b ≠ a)
    (same : g.SameInputs (g.inferred env a) env.oracle b) :
    ((g.inferred env a).Rests env b ↔ g.Rests env b) ∧
      (g.inferred env a).verdict env b = g.verdict env b := by
  have there : (g.inferred env a).node? b = g.node? b := by rw [node?_inferred, if_neg other]
  constructor
  · unfold Rests
    rw [there]
    exact forall_congr' fun n => by rw [same.judge]
  · rw [verdict, verdict, there]
    cases g.node? b with
    | none => rfl
    | some n => exact congrArg Prod.fst same.judge

/-! ### Where other types can come from -/

/-- The value of a call goes to an input of a node. Every node on a cycle of such links is a call. -/
def Feeds (g : Graph) (a b : NodeId) : Prop :=
  (∃ n, g.node? a = some n ∧ n.kind.call?.isSome = true) ∧
    ∃ n, g.node? b = some n ∧ ∃ p ∈ n.inputs, ∃ e ∈ g.edgesTo p.id, e.output.node = a

theorem Retyped.feeds (retyped : g.Retyped g') (feeds : g.Feeds a b) : g'.Feeds a b := by
  obtain ⟨⟨n, foundA, call⟩, m, foundB, p, member, e, enters, rfl⟩ := feeds
  obtain ⟨n', foundA', sameA⟩ := retyped.node foundA
  obtain ⟨m', foundB', sameB⟩ := retyped.node foundB
  have calls : n'.kind.call?.isSome = true := (congrArg NodeLayout.isCall sameA).trans call
  have inputs : m'.inputs.map Port.untyped = m.inputs.map Port.untyped :=
    congrArg NodeLayout.inputs sameB
  obtain ⟨p', member', same⟩ := List.mem_map.mp (inputs ▸ List.mem_map_of_mem member)
  have ids : p'.id = p.id := (congrArg Port.id same :)
  refine ⟨⟨n', foundA', calls⟩, m', foundB', p', member', e, ?_, rfl⟩
  rwa [edgesTo, retyped.edges, ids]

theorem Retyped.feeds_iff (retyped : g.Retyped g') : g'.Feeds a b ↔ g.Feeds a b :=
  ⟨retyped.symm.feeds, retyped.feeds⟩

/-- In a well-formed graph such a link is an edge from a call. -/
theorem WellFormed.feeds_iff (wellFormed : g.WellFormed) :
    g.Feeds a b ↔ (∃ n, g.node? a = some n ∧ n.kind.call?.isSome = true) ∧
      ∃ e ∈ g.edges.values, e.output.node = a ∧ e.input.node = b := by
  refine and_congr_right fun _ => ⟨?_, ?_⟩
  · rintro ⟨n, found, p, member, e, enters, leaves⟩
    obtain ⟨edge, entersP⟩ := List.mem_filter.mp enters
    obtain ⟨k, entry⟩ := OrderedMap.mem_values_iff.mp edge
    obtain ⟨-, q, -, seen, -, -⟩ := wellFormed.joined (OrderedMap.get?_eq_some_iff.mpr entry)
    obtain ⟨m, foundM, inside, id⟩ := exists_of_portAt? seen
    have same : p.id = q.id := (of_decide_eq_true entersP).symm.trans id.symm
    exact ⟨e, edge, leaves, (wellFormed.apart found foundM (Node.mem_ports.mpr (.inl member))
      (Node.mem_ports_of_facing inside) same).symm⟩
  · rintro ⟨e, edge, leaves, rfl⟩
    obtain ⟨k, entry⟩ := OrderedMap.mem_values_iff.mp edge
    obtain ⟨-, q, -, seen, -, -⟩ := wellFormed.joined (OrderedMap.get?_eq_some_iff.mpr entry)
    obtain ⟨m, found, inside, id⟩ := exists_of_portAt? seen
    exact ⟨m, found, q, inside, e, List.mem_filter.mpr ⟨edge, decide_eq_true id.symm⟩, leaves⟩

theorem feeds_of_origin {input : String} {ref : PortRef}
    (call : ∃ n, g.node? ref.node = some n ∧ n.kind.call?.isSome = true)
    (origin : g.inputOrigin? b input = some ref) : g.Feeds ref.node b := by
  obtain ⟨port, known, behind⟩ := Option.bind_eq_some_iff.mp origin
  obtain ⟨edge, first, leaves⟩ := Option.bind_eq_some_iff.mp behind
  obtain ⟨n, found, identity⟩ := Option.bind_eq_some_iff.mp known
  obtain ⟨p, named, rfl⟩ := Option.map_eq_some_iff.mp identity
  obtain rfl := Option.some.inj leaves
  exact ⟨call, n, found, p, List.mem_of_find?_eq_some named, edge, List.mem_of_mem_head? first, rfl⟩

/-- The same types come in at a node if the ports that they come from have the same types. -/
theorem Retyped.sameInputs (retyped : g.Retyped g')
    (types : ∀ input ref, g.inputOrigin? id input = some ref → g'.typeAt? ref = g.typeAt? ref) :
    g.SameInputs g' oracle id := by
  intro input
  rw [inputType?_eq, inputType?_eq, retyped.inputOrigin?]
  cases origin : g.inputOrigin? id input with
  | none => rfl
  | some ref => rw [Option.bind_some, Option.bind_some, types input ref origin]

theorem Rests.sameInputs (rests : g.Rests env a) (b : NodeId) :
    g.SameInputs (g.inferred env a) oracle b := by
  rw [rests.inferred_eq]
  exact SameInputs.refl g oracle b

/-- Inferring a call changes nothing about what comes in at a node that it does not feed. -/
theorem ShowsCalls.sameInputs_of_not_feeds (shows : g.ShowsCalls env) (apart : ¬ g.Feeds a b) :
    g.SameInputs (g.inferred env a) oracle b := by
  by_cases rests : g.Rests env a
  · exact rests.sameInputs b
  · obtain ⟨n, found, changes⟩ : ∃ n, g.node? a = some n ∧ (g.judge env a n).2 ≠ n := by
      simpa [Rests] using rests
    have call : n.kind.call?.isSome = true := by
      rcases judge_cases g env a n with ⟨same, -⟩ | ⟨decl, m, call, -⟩
      · exact absurd same changes
      · rw [call]
        rfl
    refine (shows.retyped a).sameInputs fun input ref origin => ?_
    have elsewhere : ref.node ≠ a := by
      rintro rfl
      exact apart (feeds_of_origin ⟨n, found, call⟩ origin)
    rw [typeAt?, typeAt?, node?_inferred, if_neg elsewhere]

/-- Inferring a call changes nothing about what comes in anywhere if the call is the same apart from
the order of its type arguments. -/
theorem ShowsCalls.sameInputs_of_sameCall (shows : g.ShowsCalls env)
    (unchanged : sameCall g (g.inferred env a) a = true) (b : NodeId) :
    g.SameInputs (g.inferred env a) oracle b := by
  by_cases rests : g.Rests env a
  · exact rests.sameInputs b
  · obtain ⟨n, found, changes⟩ : ∃ n, g.node? a = some n ∧ (g.judge env a n).2 ≠ n := by
      simpa [Rests] using rests
    have here : (g.inferred env a).node? a = some (g.judge env a n).2 := by
      rw [node?_inferred, if_pos rfl, found]
      rfl
    rcases judge_cases g env a n with ⟨same, -⟩ | ⟨decl, m, call, known, generic⟩
    · exact absurd same changes
    · have shown := showsCalls_iff.mp shows a n found decl m call known
      have ports : (g.judge env a n).2.ports = n.ports := by
        rw [judge_of_generic call known generic] at here ⊢
        refine Node.ports_solved_of_agrees (fun single => shown (duplicatePort?_callPorts single)) ?_
        simpa only [sameCall, found, here, Option.map_some, call, Node.kind_solved] using unchanged
      refine (shows.retyped a).sameInputs fun input ref _ => ?_
      rw [typeAt?, typeAt?, node?_inferred]
      split
      · rename_i this
        rw [this, found, Option.map_some, Option.bind_some, Option.bind_some, Node.port?, Node.port?,
          ports]
      · rfl

end Graph

end NodeScript
