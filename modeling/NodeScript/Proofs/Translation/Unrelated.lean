import NodeScript.Proofs.Graph.Histories
import NodeScript.Proofs.Graph.Parts
import NodeScript.Proofs.Translation.Depth
import NodeScript.Proofs.Translation.Traversal
import NodeScript.Proofs.Translation.Trails

/-!
Nodes that have no part in the code of a graph. The translation starts from the functions and follows
edges and stacks, so it never leaves a part that holds all functions and that nothing joins with the
rest; and each question that it asks of the part has the same answer without the rest.
-/

namespace NodeScript

section Rules

variable {α β : Type} {m m' : Translate α} {P : α → Prop} {Q : β → Prop}

/-- Two parts of the translation are the same, and the result is as told. -/
def Coincide (m m' : Translate α) (P : α → Prop) : Prop := m = m' ∧ ResultSatisfies m' P

namespace Coincide

theorem refl (m : Translate α) : Coincide m m fun _ => True := ⟨rfl, .any⟩

theorem eq (coincide : Coincide m m' P) : m = m' := coincide.1

theorem of_eq (same : m = m') : Coincide m m' fun _ => True := ⟨same, .any⟩

theorem pure {a : α} (holds : P a) : Coincide (pure a) (pure a) P := ⟨rfl, .pure holds⟩

theorem bind {f f' : α → Translate β} (first : Coincide m m' P)
    (next : ∀ a, P a → Coincide (f a) (f' a) Q) : Coincide (m >>= f) (m' >>= f') Q := by
  obtain ⟨rfl, satisfies⟩ := first
  refine ⟨?_, satisfies.bind fun a holds => (next a holds).2⟩
  funext s
  exact congrFun (next _ (satisfies s)).1 (m.run s).2

end Coincide

end Rules

namespace TranslationEnv

/-- The translation of a part of the graph. -/
def within (env : TranslationEnv) (inside : NodeId → Bool) : TranslationEnv :=
  { env with graph := env.graph.part inside }

variable {env : TranslationEnv} {inside : NodeId → Bool} {node : NodeId} {n : Node}

/-! ### Values -/

theorem outputType?_congr {type type' : NodeId → String → Option TypeExpr}
    (same : ∀ input, type n.id input = type' n.id input) (output : String) :
    env.outputType? type n output = env.outputType? type' n output := by
  unfold outputType?
  simp only [same]

theorem callTypeArgs_within (n : Node) (call : CallDecl) (names : List String) :
    (env.within inside).callTypeArgs n call names = env.callTypeArgs n call names := by
  induction names with
  | nil => rfl
  | cons name rest ih =>
    rw [callTypeArgs, callTypeArgs, ih]
    rfl

theorem callExpr_within (n : Node) (call : CallDecl) (input : String → Evaluate Expr) :
    (env.within inside).callExpr n call input = env.callExpr n call input := by
  unfold callExpr
  simp only [callTypeArgs_within]
  rfl

section Detached

variable (detached : env.graph.Detached inside)

include detached

theorem inputTypeWithin_within (here : inside node = true) (steps : Nat) (input : String) :
    (env.within inside).inputTypeWithin steps node input =
      env.inputTypeWithin steps node input := by
  induction steps generalizing node input with
  | zero => rfl
  | succ steps ih =>
    have found : (env.within inside).graph.node? node = env.graph.node? node :=
      Graph.node?_inside here
    have source : (env.within inside).graph.inputSource? node input =
        env.graph.inputSource? node input := detached.inputSource?_part here input
    rw [inputTypeWithin, inputTypeWithin, found, source]
    refine bind_congr fun n => bind_congr fun port => ?_
    cases connected : env.graph.inputSource? node input with
    | none => rfl
    | some source =>
      have onward := detached.inputSource?_inside here connected
      exact outputType?_congr (fun input => ih onward input) _

theorem inputType?_within (here : inside node = true) :
    (env.within inside).inputType? node = env.inputType? node :=
  funext fun input => inputTypeWithin_within detached here typeLookupSteps input

theorem operatorFault?_within (here : inside n.id = true) (kind : NodeKind) :
    (env.within inside).operatorFault? n kind = env.operatorFault? n kind := by
  unfold operatorFault?
  rw [inputType?_within detached here]
  rfl

theorem valueOf_within (here : inside n.id = true) (builtIn : n.kind.isBuiltIn = true)
    (output : String) (input : String → Evaluate Expr) :
    (env.within inside).valueOf n output input = env.valueOf n output input := by
  unfold valueOf
  simp only [operatorFault?_within detached here, callExpr_within]
  cases kind : n.kind with
  | custom => simp [kind, NodeKind.isBuiltIn] at builtIn
  | _ => rfl

/-- Where the values of nodes of the part are built alike, so are those of their inputs. -/
theorem inputFrom_within {under : List NodeId} {build build' : NodeId → Node → String → Evaluate Expr}
    (same : ∀ {source origin}, inside source = true → env.graph.node? source = some origin →
      build source origin = build' source origin)
    (here : inside node = true) (input : String) :
    (env.within inside).inputFrom under build node input = env.inputFrom under build' node input := by
  have found : (env.within inside).graph.node? node = env.graph.node? node := Graph.node?_inside here
  have source : (env.within inside).graph.inputSource? node input =
      env.graph.inputSource? node input := detached.inputSource?_part here input
  unfold inputFrom
  rw [found, source]
  split
  · rfl
  split
  · rfl
  split
  · rfl
  rename_i connected
  have onward := detached.inputSource?_inside here connected
  have kept : (env.within inside).graph.node? _ = env.graph.node? _ := Graph.node?_inside onward
  refine bind_congr fun s => ?_
  split
  · rfl
  rw [kept]
  split
  · rfl
  · rename_i found
    rw [same onward found]

theorem inputCut_within (builtIn : env.graph.BuiltIn)
    (cut : List NodeId → NodeId → String → Evaluate Expr) (depth : Nat) (under : List NodeId)
    (here : inside node = true) (input : String) :
    (env.within inside).inputCut cut depth under node input = env.inputCut cut depth under node input := by
  induction depth generalizing under node input with
  | zero => rfl
  | succ depth ih =>
    rw [inputCut, inputCut]
    refine inputFrom_within detached (fun {source origin} onward found => ?_) here input
    have filed := detached.nodeFiled found
    have reads : (env.within inside).inputCut cut depth (source :: under) origin.id =
        env.inputCut cut depth (source :: under) origin.id :=
      funext fun input => ih (source :: under) (filed ▸ onward) input
    funext output
    rw [reads, valueOf_within detached (filed ▸ onward) (builtIn found)]

omit detached in
theorem size_within : (env.within inside).graph.nodes.size ≤ env.graph.nodes.size :=
  List.length_filter_le ..

/-- The bounds on the depth differ, but neither is ever met. -/
theorem inputExpr_within (builtIn : env.graph.BuiltIn) (here : inside node = true) :
    (env.within inside).inputExpr node = env.inputExpr node := by
  let cut : List NodeId → NodeId → String → Evaluate Expr := fun _ node _ => throw (cyclicValue node)
  let depth := env.graph.nodes.size + 1
  have whole : env.inputCut cut depth [] = env.inputExpr :=
    (env.comesToEnd node).values cut depth (Nat.lt_succ_self _)
  have part : (env.within inside).inputCut cut depth [] = (env.within inside).inputExpr :=
    ((env.within inside).comesToEnd node).values cut depth (Nat.lt_succ_of_le size_within)
  rw [← whole, ← part]
  exact funext fun input => inputCut_within detached builtIn cut depth [] here input

theorem inputOrDefault_within (builtIn : env.graph.BuiltIn) (here : inside node = true)
    (input type : String) :
    (env.within inside).inputOrDefault node input type = env.inputOrDefault node input type := by
  rw [inputOrDefault, inputOrDefault, inputExpr_within detached builtIn here]

end Detached

end TranslationEnv

/-! ### Stacks -/

namespace Graph.Detached

variable {g : Graph} {inside : NodeId → Bool} {n : Node} {j : NodeId} (detached : g.Detached inside)

include detached

theorem joinBehind?_part (here : inside n.id = true) :
    (g.part inside).joinBehind? n = g.joinBehind? n := by
  have ways : n.kind.exitNames.map ((g.part inside).execTarget? n.id) =
      n.kind.exitNames.map (g.execTarget? n.id) :=
    List.map_congr_left fun name _ => detached.execTarget?_part here name
  rw [joinBehind?, joinBehind?, joinOfWays?, joinOfWays?, ways]
  refine Option.bind_congr fun origins leads => detached.joinOf?_part fun o member => ?_
  have origin : some o ∈ n.kind.exitNames.map (g.execTarget? n.id) :=
    mapM_id_eq_some.mp leads ▸ List.mem_map_of_mem member
  obtain ⟨name, -, target⟩ := List.mem_map.mp origin
  exact detached.execTarget?_inside here target

theorem joinBehind?_inside (here : inside n.id = true) (join : g.joinBehind? n = some j) :
    inside j = true := by
  obtain ⟨some, always⟩ := leadsTo_of_joinOfWays? join
  obtain ⟨way, member⟩ := List.exists_mem_of_ne_nil _ some
  obtain ⟨t, rfl, sure⟩ := always way member
  obtain ⟨name, -, target⟩ := List.mem_map.mp member
  exact detached.reach_inside (detached.execTarget?_inside here target) sure.reachable

end Graph.Detached

section Parts

variable {env : TranslationEnv} {inside : NodeId → Bool} {chain chain' : BranchTranslator} {n : Node}

/-- Where it goes on is in the part. -/
def StaysInside (inside : NodeId → Bool) {α : Type} (r : α × Option NodeId) : Prop :=
  ∀ t, r.2 = some t → inside t = true

theorem staysInside_nowhere {α : Type} (a : α) : StaysInside inside (a, none) := by
  intro t absurdity
  cases absurdity

variable (detached : env.graph.Detached inside) (builtIn : env.graph.BuiltIn)
  (chains : ∀ {start}, inside start = true → chain start = chain' start)

include chains in
omit detached in
theorem translateBranch_within {target : Option NodeId}
    (here : ∀ t, target = some t → inside t = true) (join : Option NodeId) :
    translateBranch chain target join = translateBranch chain' target join := by
  cases target with
  | none => rfl
  | some start => rw [translateBranch, translateBranch, chains (here start rfl)]

include detached

include chains in
theorem translateExit_within (here : inside n.id = true) (output : String) (join : Option NodeId) :
    translateBranch chain ((env.within inside).graph.execTarget? n.id output) join =
      translateBranch chain' (env.graph.execTarget? n.id output) join := by
  have target : (env.within inside).graph.execTarget? n.id output =
      env.graph.execTarget? n.id output := detached.execTarget?_part here output
  rw [target]
  exact translateBranch_within chains (fun t => detached.execTarget?_inside here) join

include builtIn

include chains in
theorem translateIf_within (here : inside n.id = true) (choice : n.kind = .branch) :
    Coincide (translateIf (env.within inside) chain n) (translateIf env chain' n)
      (StaysInside inside) := by
  have joined : (env.within inside).graph.joinBehind? n = env.graph.joinBehind? n :=
    detached.joinBehind?_part here
  rw [translateIf_eq _ _ choice, translateIf_eq _ _ choice, joined,
    TranslationEnv.inputOrDefault_within detached builtIn here]
  refine (Coincide.refl _).bind fun condition _ => ?_
  dsimp only
  rw [translateExit_within detached chains here, translateExit_within detached chains here]
  refine (Coincide.refl _).bind fun thenBody _ => (Coincide.refl _).bind fun elseBody _ => ?_
  exact .pure fun j join => detached.joinBehind?_inside here join

omit builtIn in
include chains in
theorem translateCases_within (here : inside n.id = true) (join : Option NodeId)
    (cases : List Int64) : translateCases (env.within inside) chain n join cases =
      translateCases env chain' n join cases := by
  induction cases with
  | nil => rfl
  | cons label rest ih =>
    rw [translateCases, translateCases, translateExit_within detached chains here, ih]

include chains in
theorem translateSwitch_within (here : inside n.id = true) {cases : List Int64}
    (choice : n.kind = .select cases) :
    Coincide (translateSwitch (env.within inside) chain n cases)
      (translateSwitch env chain' n cases) (StaysInside inside) := by
  have joined : (env.within inside).graph.joinBehind? n = env.graph.joinBehind? n :=
    detached.joinBehind?_part here
  unfold translateSwitch
  dsimp only
  rw [joinBehind?_select choice, joinBehind?_select choice, joined,
    TranslationEnv.inputOrDefault_within detached builtIn here]
  refine (Coincide.refl _).bind fun value _ => ?_
  rw [translateCases_within detached chains here, translateExit_within detached chains here]
  refine (Coincide.refl _).bind fun bodies _ => (Coincide.refl _).bind fun fallback _ => ?_
  exact .pure fun j join => detached.joinBehind?_inside here join

theorem translateLeave_within (here : inside n.id = true) :
    translateLeave (env.within inside) n = translateLeave env n := by
  unfold translateLeave
  simp only [TranslationEnv.inputOrDefault_within detached builtIn here]

theorem translateAssignment_within (here : inside n.id = true) (id : VariableId) :
    translateAssignment (env.within inside) n id = translateAssignment env n id := by
  unfold translateAssignment
  simp only [TranslationEnv.inputOrDefault_within detached builtIn here]
  rfl

theorem translateCall_within {k : NodeId} (found : env.graph.node? k = some n)
    (here : inside k = true) (call : CallDecl) :
    translateCall (env.within inside) n call = translateCall env n call := by
  have filed := detached.nodeFiled found
  have used : ((n.output? "Result").any fun port =>
      !((env.within inside).graph.edgesFrom port.id).isEmpty) =
      (n.output? "Result").any fun port => !(env.graph.edgesFrom port.id).isEmpty := by
    cases own : n.output? "Result" with
    | none => rfl
    | some p =>
      have member : p ∈ n.ports := Node.mem_ports.mpr (.inr (List.mem_of_find?_eq_some own))
      have edges : (env.within inside).graph.edgesFrom p.id = env.graph.edgesFrom p.id :=
        detached.edgesFrom_part found here member
      rw [Option.any_some, Option.any_some, edges]
  unfold translateCall
  rw [TranslationEnv.callExpr_within,
    TranslationEnv.inputExpr_within detached builtIn (filed ▸ here), used]

include chains

theorem translateNode_within {k : NodeId} (found : env.graph.node? k = some n)
    (here : inside k = true) :
    translateNode (env.within inside) chain n = translateNode env chain' n := by
  have own : inside n.id = true := detached.nodeFiled found ▸ here
  have value := TranslationEnv.inputOrDefault_within detached builtIn own
  have body := translateExit_within detached chains own "Body" none
  unfold translateNode
  split
  · exact translateAssignment_within detached builtIn own _
  · exact translateCall_within detached builtIn found here _
  · simp only [translateWhile, value, body]
  · simp only [translateForEach, value, body]
  · rename_i kind
    have ours := builtIn found
    rw [kind] at ours
    cases ours
  · rfl

theorem translateChildren_within {stack : NodeId} (here : inside stack = true)
    {children : List NodeId} (members : ∀ c ∈ children, inside c = true) :
    Coincide (translateChildren (env.within inside) chain stack children)
      (translateChildren env chain' stack children) (StaysInside inside) := by
  induction children with
  | nil =>
    have target : (env.within inside).graph.execTarget? stack "Out" =
        env.graph.execTarget? stack "Out" := detached.execTarget?_part here "Out"
    rw [translateChildren, translateChildren, target]
    exact .pure fun t out => detached.execTarget?_inside here out
  | cons child rest ih =>
    obtain ⟨first, members⟩ := List.forall_mem_cons.mp members
    have kept : (env.within inside).graph.node? child = env.graph.node? child :=
      Graph.node?_inside first
    rw [translateChildren, translateChildren, kept]
    cases found : env.graph.node? child with
    | none => exact ih members
    | some n =>
      have own : inside n.id = true := detached.nodeFiled found ▸ first
      refine Coincide.bind (.refl _) fun hook _ => ?_
      split
      · rename_i choice
        refine (translateIf_within detached builtIn chains own choice).bind ?_
        rintro ⟨statement, join⟩ stays
        exact .pure stays
      · rename_i choice
        refine (translateSwitch_within detached builtIn chains own choice).bind ?_
        rintro ⟨statement, join⟩ stays
        exact .pure stays
      · rw [translateLeave_within detached builtIn own]
        exact (Coincide.refl _).bind fun statement _ => .pure (staysInside_nowhere statement)
      · rw [translateNode_within detached builtIn chains found first]
        refine (Coincide.refl _).bind fun statements _ => (ih members).bind ?_
        rintro ⟨others, next⟩ stays
        exact .pure stays

theorem translateStack_within {stack : NodeId} (here : inside stack = true) :
    Coincide (translateStack (env.within inside) chain stack) (translateStack env chain' stack)
      (StaysInside inside) := by
  have kept : (env.within inside).graph.node? stack = env.graph.node? stack :=
    Graph.node?_inside here
  rw [translateStack, translateStack, kept]
  cases found : env.graph.node? stack with
  | none => exact .pure (staysInside_nowhere [])
  | some n =>
    dsimp only
    split
    · exact translateChildren_within detached builtIn chains here fun c =>
        detached.content found here
    · exact Coincide.bind (.refl _) fun _ _ => .pure (staysInside_nowhere [])

end Parts

namespace TranslationEnv

variable {env : TranslationEnv} {inside : NodeId → Bool} (detached : env.graph.Detached inside)
  (builtIn : env.graph.BuiltIn)

include detached builtIn

/-- From a stack of the part only stacks of the part are translated. The induction is on the depth. -/
theorem chainCut_within (cut : List NodeId → BranchTranslator) (depth : Nat) (path : List NodeId)
    {start : NodeId} (here : inside start = true) :
    (env.within inside).chainCut cut depth path start = env.chainCut cut depth path start := by
  induction depth generalizing path start with
  | zero => rfl
  | succ depth ih =>
    funext stop
    rw [chainCut, chainCut, chainStep, chainStep]
    split
    · rfl
    split
    · rfl
    refine Coincide.eq (P := fun _ => True) ?_
    refine (translateStack_within detached builtIn (fun here => ih (start :: path) here) here).bind ?_
    rintro ⟨statements, next⟩ stays
    cases next with
    | none => exact .pure trivial
    | some next =>
      refine .of_eq ?_
      dsimp only
      rw [ih (start :: path) (stays next rfl)]

theorem functionBody_within {function : NodeId} (here : inside function = true) :
    (env.within inside).functionBody function = env.functionBody function := by
  let cut : List NodeId → BranchTranslator := fun _ _ _ => pure []
  let depth := env.graph.nodes.size + 1
  have whole : env.chainCut cut depth [] function none = env.functionBody function :=
    (env.comesToEnd function).chains cut depth (Nat.lt_succ_self _)
  have part : (env.within inside).chainCut cut depth [] function none =
      (env.within inside).functionBody function :=
    ((env.within inside).comesToEnd function).chains cut depth (Nat.lt_succ_of_le size_within)
  rw [← whole, ← part, chainCut_within detached builtIn cut depth [] here]

/-! ### Functions -/

omit detached builtIn in
theorem translateVariables_within (function : NodeId) (vars : List VariableDecl) :
    translateVariables (env.within inside) function vars = translateVariables env function vars := by
  induction vars with
  | nil => rfl
  | cons v rest ih =>
    rw [translateVariables, translateVariables, ih]
    rfl

theorem translateFunction_within {function : NodeId} (here : inside function = true)
    (decl : FunctionDecl) :
    translateFunction (env.within inside) function decl = translateFunction env function decl := by
  have vars : (env.within inside).graph.vars = env.graph.vars := rfl
  have complete : completeMethod (env.within inside) function decl =
      completeMethod env function decl := by
    funext parameters locals
    rw [completeMethod, completeMethod, functionBody_within detached builtIn here]
    rfl
  rw [translateFunction_eq, translateFunction_eq, functionMethod, functionMethod, vars,
    translateVariables_within, complete]

theorem translateFunctions_within {functions : List (NodeId × FunctionDecl)}
    (members : functions ⊆ env.graph.functions) :
    (functions.forM fun (function, decl) => translateFunction (env.within inside) function decl) =
      functions.forM fun (function, decl) => translateFunction env function decl := by
  have done : ∀ step : NodeId × FunctionDecl → Translate Unit,
      ([] : List (NodeId × FunctionDecl)).forM step = pure () := fun _ => rfl
  have next : ∀ (step : NodeId × FunctionDecl → Translate Unit) f rest,
      List.forM (f :: rest) step = (step f >>= fun _ => rest.forM step) := fun _ _ _ => rfl
  induction functions with
  | nil => rw [done, done]
  | cons f rest ih =>
    obtain ⟨first, members⟩ := List.cons_subset.mp members
    rw [next, next, ih members]
    dsimp only
    rw [translateFunction_within detached builtIn (detached.function_inside first)]

theorem translateMembers_within : translateMembers (env.within inside) = translateMembers env := by
  have functions : (env.within inside).graph.functions = env.graph.functions :=
    detached.functions_part
  have fields : translateFields (env.within inside) = translateFields env := rfl
  have options : (env.within inside).options = env.options := rfl
  rw [translateMembers, translateMembers, functions, fields, options,
    translateFunctions_within detached builtIn (List.Subset.refl _)]

theorem translate_within (trace : Option TraceRecord) :
    (env.within inside).translate trace = env.translate trace := by
  rw [translate_eq, translate_eq, translateMembers_within detached builtIn]
  rfl

omit detached builtIn in
/-- A node that nothing joins with the rest of a graph has no part in what the graph is translated to:
when it is removed, with what stands in it, the code is the same and so are the errors, in order. -/
theorem translate_remove (env : TranslationEnv) {id : NodeId} {n : Node}
    (formed : env.graph.WellFormed) (builtIn : env.graph.BuiltIn)
    (unrelated : env.graph.Unrelated id n) (trace : Option TraceRecord) :
    ({ env with graph := (env.graph.remove id).2 } : TranslationEnv).translate trace =
      env.translate trace := by
  rw [formed.remove_eq_part unrelated.found unrelated.free unrelated.plain]
  exact translate_within (unrelated.detached formed) builtIn trace

end TranslationEnv

/-- A function with an empty loop, and a stack with a choice that leads back to the stack. -/
def litter : Workpiece :=
  let node (n : Nat) : NodeId := ⟨familyIdentity 0 n⟩
  (Workpiece.start "Litter" .standard (.ofFamily 0)).after
    ([.spawn ⟨.stack, Eq.refl true⟩ default, .spawn ⟨.function (.onEvent .update), Eq.refl true⟩ default,
      .push (node 3) none ⟨.repeated, Eq.refl true⟩, .push (node 0) none ⟨.branch, Eq.refl true⟩,
      .connectByName (node 8) "Then" (node 0) "In"].map
        fun edit => (⟨TypeDatabase.empty.toOracle, ∅⟩, edit))

theorem TranslationEnv.translate_remove_litter :
    let env : TranslationEnv := ⟨litter.1, TypeDatabase.standard.toOracle, .standard, ∅⟩
    let id : NodeId := ⟨familyIdentity 0 0⟩
    litter.1.WellFormed ∧ litter.1.BuiltIn ∧ ∃ n, litter.1.Unrelated id n ∧ n.children.length = 1 ∧
      ({ env with graph := (litter.1.remove id).2 } : TranslationEnv).translate none =
        env.translate none := by
  intro env id
  have lasts : litter.2.next ≤ UInt64.size := by decide +kernel
  have tended : litter.1.Tended litter.2 := (Workpiece.after_tends _ _).tended lasts
    (Workpiece.start_tended "Litter" .standard (.ofFamily 0))
  have loose : ((litter.1.node? id).any fun n => n.kind.function? = none ∧ n.parent = none ∧
      n.children.length = 1 ∧ ∀ e ∈ litter.1.edges.values,
        (e.output.node ∈ id :: n.children ↔ e.input.node ∈ id :: n.children)) = true := by
    decide +kernel
  obtain ⟨n, found, loose⟩ := (Option.any_eq_true _ _).mp loose
  obtain ⟨plain, free, single, alone⟩ := of_decide_eq_true loose
  have unrelated : litter.1.Unrelated id n :=
    ⟨found, plain, free, fun held => alone _ (OrderedMap.mem_values_of_get? held)⟩
  exact ⟨tended.toWellFormed, tended.builtIn, n, unrelated, single,
    translate_remove env tended.toWellFormed tended.builtIn unrelated none⟩

end NodeScript
