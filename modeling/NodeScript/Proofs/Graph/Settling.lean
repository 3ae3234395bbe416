import NodeScript.Proofs.Graph.Resting

/-!
Inferring all calls of a graph, pass by pass. Where no call is fed by itself, directly or not, every
pass brings the calls to rest that are fed by calls at rest only. So after as many passes as there are
calls all of them rest, and the next pass changes nothing. A pass that changes no call leaves behind a
graph in which every call rests, and its failures are the verdicts in that graph.
-/

namespace NodeScript

open Relation (TransGen)

/-- The error of a verdict. -/
def errorOf (verdict : Except InferenceError Bindings) : Option InferenceError :=
  match verdict with
  | .ok _ => none
  | .error e => some e

theorem errorOf_eq_some {verdict : Except InferenceError Bindings} {e : InferenceError} :
    errorOf verdict = some e ↔ verdict = .error e := by
  cases verdict <;> simp [errorOf]

namespace Graph

variable {g g' : Graph} {env : DefinitionEnv} {supply : IdSupply} {id a b : NodeId}
  {calls : List NodeId} {pass : InferencePass}

/-- The identities of the calls in a graph. -/
def callIds (g : Graph) : List NodeId :=
  (g.nodes.values.filter (·.kind.call?.isSome)).map (·.id)

theorem mem_callIds :
    id ∈ g.callIds ↔ ∃ n ∈ g.nodes.values, n.kind.call?.isSome = true ∧ n.id = id := by
  simp [callIds, and_assoc]

theorem Retyped.callIds_subset (retyped : g.Retyped g') (member : id ∈ g.callIds) :
    id ∈ g'.callIds := by
  obtain ⟨n, there, call, rfl⟩ := mem_callIds.mp member
  obtain ⟨k, entry⟩ := OrderedMap.mem_values_iff.mp there
  have found : g.node? k = some n := OrderedMap.get?_eq_some_iff.mpr entry
  obtain ⟨n', found', same⟩ := retyped.node found
  have call' : n'.kind.call?.isSome = true := (congrArg NodeLayout.isCall same).trans call
  exact mem_callIds.mpr
    ⟨n', OrderedMap.mem_values_of_get? found', call', congrArg NodeLayout.id same⟩

theorem sameCall_refl (g : Graph) (id : NodeId) : sameCall g g id = true := by
  unfold sameCall
  split
  · rename_i decl decl' call call'
    obtain rfl := NodeKind.call.inj (Option.some.inj (call.symm.trans call'))
    exact decl.agrees_refl
  · exact decide_eq_true rfl

/-! ### A step -/

/-- A pass in the course of inferring a graph: there are the same calls, with ports as their kinds
define them, and nothing has been taken from the supply. -/
structure Stage (g : Graph) (supply : IdSupply) (env : DefinitionEnv) (pass : InferencePass) :
    Prop where
  shows : pass.graph.ShowsCalls env
  retyped : g.Retyped pass.graph
  supply : pass.supply = supply

section Step

variable (shows : pass.graph.ShowsCalls env) (id : NodeId)

include shows

theorem step_graph : (pass.step env id).graph = pass.graph.inferred env id := by
  simp only [InferencePass.step, inferNode_eq shows]

theorem step_supply : (pass.step env id).supply = pass.supply := by
  simp only [InferencePass.step, inferNode_eq shows]

theorem step_changed : (pass.step env id).changed =
    (pass.changed || !sameCall pass.graph (pass.graph.inferred env id) id) := by
  simp only [InferencePass.step, inferNode_eq shows]

theorem step_failures (k : NodeId) : (pass.step env id).failures.get? k =
    if k = id then errorOf (pass.graph.verdict env id) else pass.failures.get? k := by
  simp only [InferencePass.step, inferNode_eq shows]
  cases pass.graph.verdict env id with
  | ok => exact OrderedMap.get?_erase
  | error e => exact OrderedMap.get?_insert

end Step

theorem Stage.step (stage : g.Stage supply env pass) (id : NodeId) :
    g.Stage supply env (pass.step env id) where
  shows := step_graph stage.shows id ▸ stage.shows.inferred id
  retyped := step_graph stage.shows id ▸ stage.retyped.trans (stage.shows.retyped id)
  supply := (step_supply stage.shows id).trans stage.supply

/-! ### A pass -/

/-- All calls are inferred once, in their order. -/
def once (env : DefinitionEnv) (calls : List NodeId) (pass : InferencePass) : InferencePass :=
  calls.foldl (InferencePass.step env) { pass with changed := false }

theorem Stage.foldl (stage : g.Stage supply env pass) (calls : List NodeId) :
    g.Stage supply env (calls.foldl (InferencePass.step env) pass) := by
  induction calls generalizing pass with
  | nil => exact stage
  | cons id rest ih => exact ih (stage.step id)

theorem Stage.unmarked (stage : g.Stage supply env pass) :
    g.Stage supply env { pass with changed := false } :=
  ⟨stage.shows, stage.retyped, stage.supply⟩

/-- Nothing is said of what is no call. -/
theorem Stage.failures_foldl (stage : g.Stage supply env pass) (other : id ∉ calls) :
    (calls.foldl (InferencePass.step env) pass).failures.get? id = pass.failures.get? id := by
  induction calls generalizing pass with
  | nil => rfl
  | cons c rest ih =>
    obtain ⟨here, later⟩ := not_or.mp (mt List.mem_cons.mpr other)
    rw [List.foldl_cons, ih (stage.step c) later, step_failures stage.shows, if_neg here]

/-- Nothing happens to calls at rest. -/
theorem Stage.foldl_of_rests (stage : g.Stage supply env pass)
    (rest : ∀ b ∈ calls, pass.graph.Rests env b) :
    (calls.foldl (InferencePass.step env) pass).changed = pass.changed := by
  induction calls generalizing pass with
  | nil => rfl
  | cons c others ih =>
    obtain ⟨first, later⟩ := List.forall_mem_cons.mp rest
    have graph : (pass.step env c).graph = pass.graph :=
      (step_graph stage.shows c).trans first.inferred_eq
    have changed : (pass.step env c).changed = pass.changed := by
      rw [step_changed stage.shows, first.inferred_eq, sameCall_refl, Bool.not_true, Bool.or_false]
    rw [List.foldl_cons, ih (stage.step c) (graph ▸ later), changed]

/-- A pass that changes no call leaves all calls at rest, and what it says of them is still so when it
has ended. -/
theorem Stage.foldl_unchanged (stage : g.Stage supply env pass)
    (unchanged : (calls.foldl (InferencePass.step env) pass).changed = false) :
    let after := calls.foldl (InferencePass.step env) pass
    ∀ b ∈ calls, after.graph.Rests env b ∧
      after.failures.get? b = errorOf (after.graph.verdict env b) := by
  induction calls using List.reverseRecOn with
  | nil => exact fun b member => nomatch member
  | append_singleton calls c ih =>
    have before := stage.foldl calls
    rw [List.foldl_concat] at unchanged ⊢
    generalize calls.foldl (InferencePass.step env) pass = mid at before unchanged ih ⊢
    rw [step_changed before.shows, Bool.or_eq_false_iff, Bool.not_eq_false'] at unchanged
    intro after b member
    -- the call is the same, so its ports are, and nothing else comes in anywhere
    have same : mid.graph.SameInputs (mid.graph.inferred env c) env.oracle b :=
      before.shows.sameInputs_of_sameCall unchanged.2 b
    have failure := step_failures before.shows c b
    rw [step_graph before.shows]
    by_cases here : b = c
    · subst here
      obtain ⟨rests, verdict⟩ := rests_inferred before.shows same
      rw [if_pos rfl] at failure
      exact ⟨rests, failure.trans (congrArg errorOf verdict.symm)⟩
    · obtain ⟨rests, verdict⟩ := rests_inferred_other here same
      obtain ⟨rested, said⟩ := ih unchanged.1 b (by simpa [here] using member)
      rw [if_neg here, said] at failure
      exact ⟨rests.mpr rested, failure.trans (congrArg errorOf verdict.symm)⟩

/-- The calls that are fed by calls at rest only come to rest in a pass, and calls at rest that are fed
by such only stay there. -/
theorem Stage.foldl_rests {still settles : NodeId → Prop} (stage : g.Stage supply env pass)
    (within : ∀ b, still b → settles b)
    (feeds : ∀ a ∈ calls, ∀ b, g.Feeds a b → settles b → still a)
    (rest : ∀ b, still b → pass.graph.Rests env b) :
    ∀ b, still b ∨ b ∈ calls ∧ settles b →
      (calls.foldl (InferencePass.step env) pass).graph.Rests env b := by
  induction calls using List.reverseRecOn with
  | nil =>
    rintro b (stays | ⟨member, -⟩)
    · exact rest b stays
    · exact nomatch member
  | append_singleton calls c ih =>
    have before := stage.foldl calls
    have ih := ih fun a member => feeds a (List.mem_append_left _ member)
    rw [List.foldl_concat]
    generalize calls.foldl (InferencePass.step env) pass = mid at before ih ⊢
    intro b chosen
    rw [step_graph before.shows]
    have settles : settles b := chosen.elim (within b) And.right
    have same : mid.graph.SameInputs (mid.graph.inferred env c) env.oracle b := by
      by_cases fed : g.Feeds c b
      -- what feeds a call that settles rested when the pass began, and has stayed so
      · exact (ih c (.inl (feeds c (by simp) b fed settles))).sameInputs b
      · exact before.shows.sameInputs_of_not_feeds (mt before.retyped.feeds_iff.mp fed)
    by_cases here : b = c
    · subst here
      exact (rests_inferred before.shows same).1
    · refine (rests_inferred_other here same).1.mpr (ih b ?_)
      simpa [here] using chosen

/-! ### As many passes as it takes -/

open Classical in
/-- How many calls feed a node, directly or not. -/
noncomputable def depth (g : Graph) (calls : List NodeId) (b : NodeId) : Nat :=
  (calls.toFinset.filter fun a => TransGen g.Feeds a b).card

theorem depth_lt_of_feeds (forward : ∀ a, ¬ TransGen g.Feeds a a) (member : a ∈ calls)
    (feeds : g.Feeds a b) : g.depth calls a < g.depth calls b := by
  refine Finset.card_lt_card (Finset.ssubset_iff_of_subset ?_ |>.mpr ⟨a, ?_, ?_⟩)
  · intro x inside
    simp only [Finset.mem_filter] at inside ⊢
    exact ⟨inside.1, inside.2.tail feeds⟩
  · simp [member, TransGen.single feeds]
  · simp [forward a]

theorem depth_lt_length (forward : ∀ a, ¬ TransGen g.Feeds a a) (member : b ∈ calls) :
    g.depth calls b < calls.length := by
  classical
  have fewer : g.depth calls b < calls.toFinset.card := by
    refine Finset.card_lt_card (Finset.ssubset_iff_of_subset (Finset.filter_subset ..) |>.mpr
      ⟨b, List.mem_toFinset.mpr member, ?_⟩)
    simp [forward b]
  exact Nat.lt_of_lt_of_le fewer (List.toFinset_card_le calls)

theorem inferPasses_succ (env : DefinitionEnv) (calls : List NodeId) (passes : Nat)
    (pass : InferencePass) :
    inferPasses env calls (passes + 1) pass =
      if (once env calls pass).changed then inferPasses env calls passes (once env calls pass)
      else once env calls pass := rfl

/-- The calls up to a depth rest after a pass for each depth. -/
theorem Stage.once_rests (stage : g.Stage supply env pass) (forward : ∀ a, ¬ TransGen g.Feeds a a)
    {k : Nat} (rest : ∀ b ∈ calls, g.depth calls b < k → pass.graph.Rests env b) :
    ∀ b ∈ calls, g.depth calls b < k + 1 → (once env calls pass).graph.Rests env b := by
  have feeds : ∀ a ∈ calls, ∀ b, g.Feeds a b → g.depth calls b < k + 1 →
      a ∈ calls ∧ g.depth calls a < k := fun a member b fed deep =>
    ⟨member, Nat.lt_of_lt_of_le (depth_lt_of_feeds forward member fed) (Nat.lt_succ_iff.mp deep)⟩
  exact fun b member deep => stage.unmarked.foldl_rests
    (fun b ⟨_, deep⟩ => Nat.lt_succ_of_lt deep) feeds (fun b ⟨member, deep⟩ => rest b member deep)
    b (.inr ⟨member, deep⟩)

theorem Stage.once_unchanged (stage : g.Stage supply env pass)
    (unchanged : (once env calls pass).changed = false) :
    ∀ b ∈ calls, (once env calls pass).graph.Rests env b ∧ (once env calls pass).failures.get? b =
      errorOf ((once env calls pass).graph.verdict env b) :=
  stage.unmarked.foldl_unchanged unchanged

/-- The passes go on to one that changes nothing if the calls up to a depth rest and there is a pass
left for each of the others, and one more. -/
theorem Stage.inferPasses_ends (stage : g.Stage supply env pass)
    (forward : ∀ a, ¬ TransGen g.Feeds a a) {k passes : Nat}
    (rest : ∀ b ∈ calls, g.depth calls b < k → pass.graph.Rests env b)
    (enough : k + passes = calls.length) :
    ∃ before, g.Stage supply env before ∧
      (∀ id ∉ calls, before.failures.get? id = pass.failures.get? id) ∧
      inferPasses env calls (passes + 1) pass = once env calls before ∧
      (once env calls before).changed = false := by
  induction passes generalizing k pass with
  | zero =>
    have still : (once env calls pass).changed = false :=
      stage.unmarked.foldl_of_rests fun b member => rest b member <| by
        have bound := depth_lt_length forward member
        omega
    exact ⟨pass, stage, fun _ _ => rfl, by rw [inferPasses_succ, still]; rfl, still⟩
  | succ passes ih =>
    cases changed : (once env calls pass).changed with
    | false => exact ⟨pass, stage, fun _ _ => rfl, by rw [inferPasses_succ, changed]; rfl, changed⟩
    | true =>
      obtain ⟨before, staged, failures, result, still⟩ :=
        ih (stage.unmarked.foldl calls) (stage.once_rests forward rest) (by omega)
      refine ⟨before, staged, fun id other => ?_, by rw [inferPasses_succ, changed]; exact result, still⟩
      exact (failures id other).trans (stage.unmarked.failures_foldl other)

theorem inferPasses_iterates (env : DefinitionEnv) (calls : List NodeId) (passes : Nat)
    (pass : InferencePass) :
    ∃ k ≤ passes, inferPasses env calls passes pass = (once env calls)^[k] pass := by
  induction passes generalizing pass with
  | zero => exact ⟨0, Nat.le_refl _, rfl⟩
  | succ passes ih =>
    rw [inferPasses_succ]
    split
    · obtain ⟨k, bound, result⟩ := ih (once env calls pass)
      exact ⟨k + 1, Nat.succ_le_succ bound, result⟩
    · exact ⟨1, Nat.succ_le_succ (Nat.zero_le _), rfl⟩

/-- Inferring all calls takes at most one pass more than there are calls. If the calls have the ports
that their kinds define and none is fed by itself, directly or not, then inferring a call once more
changes nothing, and the failures are those of the calls that fail once more, with the same errors. -/
theorem inferAll_settles (g : Graph) (env : DefinitionEnv) (supply : IdSupply) :
    let settled := g.inferAll env supply
    (∃ passes ≤ g.callIds.length + 1,
      let last := (once env g.callIds)^[passes] ⟨g, supply, ∅, false⟩
      settled = (last.failures.entries, last.graph, last.supply)) ∧
    (g.ShowsCalls env → (∀ a, ¬ TransGen g.Feeds a a) →
      (∀ n ∈ settled.2.1.nodes.values, n.kind.call?.isSome = true → ∀ supply',
        (settled.2.1.inferNode env n.id supply').2 = (settled.2.1, supply')) ∧
      ∀ id e, (id, e) ∈ settled.1 ↔
        (∃ n ∈ settled.2.1.nodes.values, n.kind.call?.isSome = true ∧ n.id = id) ∧
          ∀ supply', (settled.2.1.inferNode env id supply').1 = .error e) := by
  intro settled
  let start : InferencePass := ⟨g, supply, ∅, false⟩
  have result : settled = ((inferPasses env g.callIds (g.callIds.length + 1) start).failures.entries,
      (inferPasses env g.callIds (g.callIds.length + 1) start).graph,
      (inferPasses env g.callIds (g.callIds.length + 1) start).supply) := rfl
  constructor
  · obtain ⟨passes, bound, iterated⟩ :=
      inferPasses_iterates env g.callIds (g.callIds.length + 1) start
    exact ⟨passes, bound, by rw [result, iterated]⟩
  · intro shows forward
    have stage : g.Stage supply env start := ⟨shows, .refl g, rfl⟩
    obtain ⟨before, staged, failures, last, still⟩ := stage.inferPasses_ends forward
      (fun b _ deep => absurd deep (Nat.not_lt_zero _)) (Nat.zero_add g.callIds.length)
    have after : g.Stage supply env (once env g.callIds before) := staged.unmarked.foldl g.callIds
    have settles := staged.once_unchanged still
    have others : ∀ id ∉ g.callIds, (once env g.callIds before).failures.get? id = none :=
      fun id other => (staged.unmarked.failures_foldl other).trans (failures id other)
    rw [last] at result
    clear_value settled
    subst result
    generalize once env g.callIds before = done at after settles others
    have calls : ∀ id, id ∈ done.graph.callIds ↔ id ∈ g.callIds := fun id =>
      ⟨after.retyped.symm.callIds_subset, after.retyped.callIds_subset⟩
    have said : ∀ id supply', (done.graph.inferNode env id supply').1 = done.graph.verdict env id :=
      fun id supply' => by rw [inferNode_eq after.shows]
    constructor
    · intro n there call supply'
      have member : n.id ∈ g.callIds := (calls n.id).mp (mem_callIds.mpr ⟨n, there, call, rfl⟩)
      rw [inferNode_eq after.shows, (settles n.id member).1.inferred_eq]
    · intro id e
      simp only [said, forall_const, ← mem_callIds, calls]
      rw [← OrderedMap.get?_eq_some_iff]
      by_cases member : id ∈ g.callIds
      · rw [(settles id member).2, errorOf_eq_some]
        exact (and_iff_right member).symm
      · rw [others id member]
        exact ⟨fun absent => (nomatch absent), fun ⟨there, _⟩ => absurd there member⟩

/-- There is no cycle where the links lead from greater numbers to smaller ones. -/
theorem forward_of_falls (number : NodeId → Nat)
    (falls : ∀ entry ∈ g.nodes.entries, ∀ p ∈ entry.2.inputs, ∀ e ∈ g.edgesTo p.id,
      number entry.1 < number e.output.node) : ∀ a, ¬ TransGen g.Feeds a a := by
  have link : ∀ {a b}, g.Feeds a b → number b < number a := by
    rintro a b ⟨-, n, found, p, member, e, enters, rfl⟩
    exact falls (b, n) (OrderedMap.get?_eq_some_iff.mp found) p member e enters
  have path : ∀ {a b}, TransGen g.Feeds a b → number b < number a := by
    intro a b path
    induction path with
    | single feeds => exact link feeds
    | tail _ feeds ih => exact Nat.lt_trans (link feeds) ih
  exact fun a cycle => Nat.lt_irrefl _ (path cycle)

theorem showsCalls_of_entries (shows : ∀ entry ∈ g.nodes.entries,
      (entry.2.kind.definePorts env g.vars (g.returnTypeOf? entry.1)).toOption.all
        (fun specs => entry.2.Shows specs) = true) : g.ShowsCalls env := by
  intro id n found _ specs defined
  have shown := shows (id, n) (OrderedMap.get?_eq_some_iff.mp found)
  rw [defined] at shown
  exact of_decide_eq_true shown

/-- Calls that stand in the graph before the ones whose values they take. -/
def belatedCalls : Workpiece :=
  let id : VariableId := ⟨familyIdentity 1 0⟩
  let node (n : Nat) : NodeId := ⟨familyIdentity 0 n⟩
  (Workpiece.start "Belated" .standard (.ofFamily 0)).after <|
    [GraphEdit.addVariable ⟨id, "items", ⟨"List<int>"⟩, .field, false, none⟩,
      .spawnCall "Enumerable" "Repeat", .spawnCall "Enumerable" "First", .spawnGet id,
      .connectByName (node 4) "Result" (node 0) "element",
      .connectByName (node 7) "Value" (node 4) "source"].map fun edit =>
        (⟨TypeDatabase.standard.toOracle, ∅⟩, edit)

theorem inferAll_settles_belated :
    let env : DefinitionEnv := ⟨TypeDatabase.standard.toOracle, ∅⟩
    let settled := belatedCalls.1.inferAll env belatedCalls.2
    belatedCalls.1.ShowsCalls env ∧ (∀ a, ¬ TransGen belatedCalls.1.Feeds a a) ∧ settled.1 = [] ∧
      settled.2.1.nodes.values.map (fun n => n.outputs.map (·.type)) =
        [[⟨"IEnumerable<int>"⟩], [⟨"int"⟩], [⟨"List<int>"⟩]] ∧
      (∀ n ∈ settled.2.1.nodes.values, n.kind.call?.isSome = true → ∀ supply',
        (settled.2.1.inferNode env n.id supply').2 = (settled.2.1, supply')) := by
  intro env settled
  have shows : belatedCalls.1.ShowsCalls env := showsCalls_of_entries (by decide +kernel)
  have forward : ∀ a, ¬ TransGen belatedCalls.1.Feeds a a :=
    forward_of_falls (fun id => id.uuid.bits.toNat) (by decide +kernel)
  have types : settled.2.1.nodes.values.map (fun n => n.outputs.map (·.type)) =
      [[⟨"IEnumerable<int>"⟩], [⟨"int"⟩], [⟨"List<int>"⟩]] := by decide +kernel
  have failures : settled.1 = [] := by decide +kernel
  exact ⟨shows, forward, failures, types, ((inferAll_settles _ env belatedCalls.2).2 shows forward).1⟩

end Graph

end NodeScript
