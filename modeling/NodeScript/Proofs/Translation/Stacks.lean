import NodeScript.Proofs.Translation.Emission
import NodeScript.Proofs.Translation.Faultless

/-!
What the translation of stacks emits when it reports nothing. Every part of a stack is followed once,
with the translation of the stacks behind it assumed.
-/

namespace NodeScript

open NodeScript.Graph (Emits)

variable {env : TranslationEnv} {denv : DefinitionEnv} {chain : BranchTranslator}
  {path : List NodeId} {n : Node}

/-- The translation of the stacks from one on emits their statements. -/
def EmitsChains (g : Graph) (path : List NodeId) (chain : BranchTranslator) : Prop :=
  ∀ start stop, HoldsUnlessErrors (chain start stop) (g.Emits path stop (.way (some start)))

theorem traceStatement_holdsUnlessErrors (env : TranslationEnv) (node : NodeId) :
    HoldsUnlessErrors (traceStatement env node) (· = []) := by
  intro s untraced
  obtain ⟨context, trace, bound, closed, names⟩ := s
  obtain rfl : trace = none := untraced
  exact ⟨rfl, List.prefix_rfl, fun _ => rfl⟩

theorem inBlock_holdsUnlessErrors {body : Translate (List Stmt)} {P : List Stmt → Prop}
    (holds : HoldsUnlessErrors body P) : HoldsUnlessErrors (inBlock body) P := by
  intro s untraced
  exact holds s untraced

theorem translateBranch_holdsUnlessErrors (chains : EmitsChains env.graph path chain)
    (target join : Option NodeId) :
    HoldsUnlessErrors (translateBranch chain target join)
      (env.graph.Emits path join (.way target)) := by
  cases target with
  | none => exact .pure .nowhere
  | some start => exact inBlock_holdsUnlessErrors (chains start join)

theorem bindOutput_holdsUnlessErrors (node : NodeId) (output base : String) :
    HoldsUnlessErrors (bindOutput node output base) fun _ => True := by
  intro s untraced
  exact ⟨untraced, List.prefix_rfl, fun _ => trivial⟩

/-- What is known of a choice: its statement chooses among bodies, each of which was emitted up to
the join of all of them. -/
def EmitsChoice (g : Graph) (path : List NodeId) (n : Node) : Stmt × Option NodeId → Prop
  | (stmt, join) => join = g.joinBehind? n ∧ ∃ bodies, stmt.Chooses n bodies ∧
    ∀ name ∈ n.kind.exitNames, g.Emits path join (.way (g.execTarget? n.id name)) (bodies name)

theorem joinBehind?_branch {g : Graph} (choice : n.kind = .branch) :
    (match g.execTarget? n.id "Then", g.execTarget? n.id "Else" with
      | some a, some b => g.joinOfTwo? a b
      | _, _ => none) = g.joinBehind? n := by
  cases first : g.execTarget? n.id "Then" <;> cases second : g.execTarget? n.id "Else" <;>
    simp [Graph.joinBehind?, Graph.joinOfWays?, Graph.joinOfTwo?, choice, NodeKind.exitNames, first,
      second]

/-- A choice between two branches asks for their join as any choice does. -/
theorem translateIf_eq (env : TranslationEnv) (chain : BranchTranslator) (choice : n.kind = .branch) :
    translateIf env chain n = (do
      let condition ← env.inputOrDefault n.id "Condition" "bool"
      let join := env.graph.joinBehind? n
      let thenBody ← translateBranch chain (env.graph.execTarget? n.id "Then") join
      let elseBody ← translateBranch chain (env.graph.execTarget? n.id "Else") join
      return (.branch (some n.id) condition thenBody elseBody, join)) := by
  rw [← joinBehind?_branch choice]
  rfl

theorem translateIf_holdsUnlessErrors (standard : env.graph.Standard denv)
    (chains : EmitsChains env.graph path chain) (choice : n.kind = .branch) :
    HoldsUnlessErrors (translateIf env chain n) (EmitsChoice env.graph path n) := by
  unfold translateIf
  refine (env.inputOrDefault_holdsUnlessErrors standard _ _ _).bind fun condition => ?_
  refine (translateBranch_holdsUnlessErrors chains _ _).bind fun thenBody => ?_
  refine (translateBranch_holdsUnlessErrors chains _ _).bind fun elseBody => .pure ?_
  intro elseEmits thenEmits _
  refine ⟨joinBehind?_branch choice, fun name => if name = "Then" then thenBody else elseBody,
    fun decisions => ?_, ?_⟩
  · simp only [Stmt.run, Option.toList, choice, NodeKind.exit]
    congr
    funext d rest
    split <;> rfl
  · simp only [choice, NodeKind.exitNames, List.forall_mem_cons, List.not_mem_nil,
      if_true, show "Else" ≠ "Then" by decide, if_false]
    exact ⟨thenEmits, elseEmits, fun _ absurdity => absurdity.elim⟩

def SwitchCase.label : SwitchCase → Int64
  | .mk label _ => label

def SwitchCase.body : SwitchCase → List Stmt
  | .mk _ body => body

theorem SwitchCase.runFirst_eq (made : List SwitchCase) (fallback : List Stmt) (d : Int64)
    (decisions : List Int64) :
    SwitchCase.runFirst made d decisions (Stmt.runAll fallback) =
      Stmt.runAll (((made.find? fun c => c.label = d).map SwitchCase.body).getD fallback)
        decisions := by
  induction made with
  | nil => simp [SwitchCase.runFirst]
  | cons c rest ih =>
    obtain ⟨label, body⟩ := c
    rw [SwitchCase.runFirst, List.find?_cons, ih]
    by_cases same : d = label
    · simp [same, SwitchCase.label, SwitchCase.body]
    · simp [same, SwitchCase.label, Ne.symm same]

/-- The body behind an output: that of the first case with the output, or the one without a case. -/
def bodyBehind (made : List SwitchCase) (fallback : List Stmt) (output : String) : List Stmt :=
  ((made.find? fun c => caseOutput c.label = output).map SwitchCase.body).getD fallback

/-- No two cases share an output, so looking for the output finds the case of the decision. -/
theorem bodyBehind_exit {kind : NodeKind} {cases : List Int64} {made : List SwitchCase}
    (choice : kind = .select cases) (nodup : kind.exitNames.Nodup)
    (labels : made.map SwitchCase.label = cases) (fallback : List Stmt) (d : Int64) :
    bodyBehind made fallback (kind.exit d) =
      ((made.find? fun c => c.label = d).map SwitchCase.body).getD fallback := by
  subst choice labels
  obtain ⟨single, -, apart⟩ := List.nodup_append.mp nodup
  have same : ∀ c ∈ made,
      decide (caseOutput c.label = NodeKind.exit (.select (made.map SwitchCase.label)) d) =
        decide (c.label = d) := by
    intro c member
    have inside := List.mem_map_of_mem (f := SwitchCase.label) member
    rw [decide_eq_decide]
    by_cases held : d ∈ made.map SwitchCase.label
    · rw [NodeKind.exit, if_pos held]
      exact ⟨fun same => List.inj_on_of_nodup_map single inside held same, congrArg caseOutput⟩
    · rw [NodeKind.exit, if_neg held]
      constructor
      · exact fun same => absurd same (apart _ (List.mem_map_of_mem inside) _ (.head _))
      · rintro rfl
        exact absurd inside held
  rw [bodyBehind, ← List.head?_filter, ← List.head?_filter, List.filter_congr same]

theorem translateCases_holdsUnlessErrors (chains : EmitsChains env.graph path chain)
    (join : Option NodeId)
    (cases : List Int64) :
    HoldsUnlessErrors (translateCases env chain n join cases) fun made =>
      made.map SwitchCase.label = cases ∧ ∀ c ∈ made, env.graph.Emits path join
        (.way (env.graph.execTarget? n.id (caseOutput c.label))) c.body := by
  induction cases with
  | nil => exact .pure ⟨rfl, nofun⟩
  | cons label rest ih =>
    refine (translateBranch_holdsUnlessErrors chains _ _).bind fun body => ih.bind fun others =>
      .pure ?_
    rintro ⟨labels, emits⟩ here
    exact ⟨congrArg (label :: ·) labels, List.forall_mem_cons.mpr ⟨here, emits⟩⟩

theorem joinBehind?_select {cases : List Int64} (choice : n.kind = .select cases) :
    joinOfCases? env n cases = env.graph.joinBehind? n := by
  simp [joinOfCases?, Graph.joinBehind?, Graph.joinOfWays?, choice, NodeKind.exitNames,
    List.mapM_append, List.mapM_map, Function.comp_def, Option.bind_assoc]

theorem translateSwitch_holdsUnlessErrors (standard : env.graph.Standard denv) {cases : List Int64}
    (chains : EmitsChains env.graph path chain) (choice : n.kind = .select cases)
    (nodup : n.kind.exitNames.Nodup) :
    HoldsUnlessErrors (translateSwitch env chain n cases) (EmitsChoice env.graph path n) := by
  unfold translateSwitch
  refine (env.inputOrDefault_holdsUnlessErrors standard _ _ _).bind fun value => ?_
  refine (translateCases_holdsUnlessErrors chains _ cases).bind fun made => ?_
  refine (translateBranch_holdsUnlessErrors chains _ _).bind fun fallback => .pure ?_
  rintro otherwise ⟨labels, emits⟩ _
  refine ⟨joinBehind?_select choice, bodyBehind made fallback, fun decisions => ?_, ?_⟩
  · rw [Stmt.run]
    congr
    funext d rest
    rw [SwitchCase.runFirst_eq, bodyBehind_exit choice nodup labels]
  · intro name member
    unfold bodyBehind
    cases found : made.find? fun c => caseOutput c.label = name with
    | some c =>
      have named : caseOutput c.label = name := by simpa using List.find?_some found
      exact named ▸ emits c (List.mem_of_find?_eq_some found)
    | none =>
      rw [choice, NodeKind.exitNames, List.mem_append, List.mem_singleton] at member
      rcases member with member | rfl
      · obtain ⟨label, held, rfl⟩ := List.mem_map.mp member
        obtain ⟨c, inside, rfl⟩ := List.mem_map.mp (labels ▸ held)
        have differ := List.find?_eq_none.mp found c inside
        simp at differ
      · exact otherwise

theorem translateLeave_holdsUnlessErrors (standard : env.graph.Standard denv) (n : Node) :
    HoldsUnlessErrors (translateLeave env n) fun stmt => stmt.Leaves n.id := by
  unfold translateLeave
  split
  · refine (env.inputOrDefault_holdsUnlessErrors standard _ _ _).bind fun value => .pure ?_
    exact fun _ decisions => by rw [Stmt.run, Option.toList]
  · exact .pure fun decisions => by rw [Stmt.run, Option.toList]

/-- What is known of the statements of a node that does not end its stack: there is one, which is
passed or repeats a body. -/
def EmitsNode (g : Graph) (path : List NodeId) (n : Node) (stmts : List Stmt) : Prop :=
  ∃ stmt, stmts = [stmt] ∧
    ((n.kind.isLoop = false ∧ stmt.Passes n.id) ∨
      (n.kind.isLoop = true ∧ ∃ body, stmt.Loops n.id body ∧
        g.Emits path none (.way (g.execTarget? n.id "Body")) body))

theorem translateAssignment_holdsUnlessErrors (standard : env.graph.Standard denv) {id : VariableId}
    (kind : n.kind = .setVariable id) :
    HoldsUnlessErrors (translateAssignment env n id) (EmitsNode env.graph path n) := by
  have single : n.kind.isLoop = false := by rw [kind]; rfl
  unfold translateAssignment
  split
  · exact (HoldsUnlessErrors.report _).bind fun _ => .pure fun absurdity => absurdity.elim
  · refine (env.inputOrDefault_holdsUnlessErrors standard _ _ _).bind fun value => .pure ?_
    exact fun _ => ⟨_, rfl, .inl ⟨single, fun decisions => by rw [Stmt.run, Option.toList]⟩⟩

theorem translateCall_holdsUnlessErrors (standard : env.graph.Standard denv) {call : CallDecl}
    (kind : n.kind = .call call) :
    HoldsUnlessErrors (translateCall env n call) (EmitsNode env.graph path n) := by
  have single : n.kind.isLoop = false := by rw [kind]; rfl
  unfold translateCall
  refine (TranslationEnv.callExpr_keepsState standard kind).holdsUnlessErrors.bind fun result => ?_
  cases result with
  | error e =>
    exact (HoldsUnlessErrors.report e).bind fun _ => .pure fun absurdity => absurdity.elim
  | ok value =>
    dsimp only
    split
    · refine (bindOutput_holdsUnlessErrors _ _ _).bind fun name => .pure ?_
      exact fun _ _ => ⟨_, rfl, .inl ⟨single, fun decisions => by rw [Stmt.run, Option.toList]⟩⟩
    · refine .pure fun _ => ?_
      exact ⟨_, rfl, .inl ⟨single, fun decisions => by rw [Stmt.run, Option.toList]⟩⟩

theorem translateWhile_holdsUnlessErrors (standard : env.graph.Standard denv)
    (chains : EmitsChains env.graph path chain) (kind : n.kind = .repeated) :
    HoldsUnlessErrors (translateWhile env chain n) (EmitsNode env.graph path n) := by
  have loop : n.kind.isLoop = true := by rw [kind]; rfl
  unfold translateWhile
  refine (env.inputOrDefault_holdsUnlessErrors standard _ _ _).bind fun condition => ?_
  refine (translateBranch_holdsUnlessErrors chains _ _).bind fun body => .pure fun emits _ => ?_
  exact ⟨_, rfl, .inr ⟨loop, body, fun decisions => by rw [Stmt.run, Option.toList], emits⟩⟩

theorem translateForEach_holdsUnlessErrors (standard : env.graph.Standard denv)
    (chains : EmitsChains env.graph path chain) (kind : n.kind = .forEach) :
    HoldsUnlessErrors (translateForEach env chain n) (EmitsNode env.graph path n) := by
  have loop : n.kind.isLoop = true := by rw [kind]; rfl
  unfold translateForEach
  refine (env.inputOrDefault_holdsUnlessErrors standard _ _ _).bind fun collection => ?_
  refine (bindOutput_holdsUnlessErrors _ _ _).bind fun item => ?_
  refine (translateBranch_holdsUnlessErrors chains _ _).bind fun body => ?_
  refine HoldsUnlessErrors.bind (HoldsUnlessErrors.modify ?_ ?_) fun _ => .pure ?_
  · exact fun _ => rfl
  · exact fun _ => rfl
  · intro _ emits _ _
    exact ⟨_, rfl, .inr ⟨loop, body, fun decisions => by rw [Stmt.run, Option.toList], emits⟩⟩

theorem translateNode_holdsUnlessErrors (standard : env.graph.Standard denv)
    (chains : EmitsChains env.graph path chain) (builtIn : n.kind.isBuiltIn = true) :
    HoldsUnlessErrors (translateNode env chain n) (EmitsNode env.graph path n) := by
  unfold translateNode
  split
  · exact translateAssignment_holdsUnlessErrors standard (by assumption)
  · exact translateCall_holdsUnlessErrors standard (by assumption)
  · exact translateWhile_holdsUnlessErrors standard chains (by assumption)
  · exact translateForEach_holdsUnlessErrors standard chains (by assumption)
  · rename_i custom
    rw [custom] at builtIn
    exact absurd builtIn (by simp [NodeKind.isBuiltIn])
  · exact (HoldsUnlessErrors.report _).bind fun _ => .pure fun absurdity => absurdity.elim

/-- What is known of statements and of where execution goes on behind them: with the statements
emitted from there on they make up those of a passage. -/
def EmitsUpTo (g : Graph) (path : List NodeId) (passage : Passage) :
    List Stmt × Option NodeId → Prop
  | (stmts, next) => ∀ stop others, g.Emits path stop (.way next) others →
    g.Emits path stop passage (stmts ++ others)

theorem emits_nowhere {g : Graph} {stop : Option NodeId} {stmts : List Stmt}
    (emits : g.Emits path stop (.way none) stmts) : stmts = [] := by
  cases emits
  rfl

theorem translateChildren_holdsUnlessErrors (standard : env.graph.Standard denv)
    (chains : EmitsChains env.graph path chain) (stack : NodeId) (rest : List NodeId) :
    HoldsUnlessErrors (translateChildren env chain stack rest)
      (EmitsUpTo env.graph path (.nodes stack rest)) := by
  induction rest with
  | nil => exact .pure fun stop others emits => .out emits
  | cons child rest ih =>
    unfold translateChildren
    split
    · rename_i gone
      exact ih.mono fun _ emits stop others behind => .absent gone (emits stop others behind)
    · rename_i n found
      have filed := standard.filed found
      refine (traceStatement_holdsUnlessErrors env child).bind fun hook => ?_
      split
      · rename_i kind
        have choice : n.kind.isBranching = true := by rw [kind]; rfl
        refine (translateIf_holdsUnlessErrors standard chains kind).bind fun (stmt, join) =>
          .pure ?_
        rintro ⟨rfl, bodies, chooses, emits⟩ rfl stop others behind
        exact .choice found choice chooses emits behind
      · rename_i cases kind
        have choice : n.kind.isBranching = true := by rw [kind]; rfl
        have nodup := standard.nodup_exitNames found choice
        refine (translateSwitch_holdsUnlessErrors standard chains kind nodup).bind
          fun (stmt, join) => .pure ?_
        rintro ⟨rfl, bodies, chooses, emits⟩ rfl stop others behind
        exact .choice found choice chooses emits behind
      · rename_i kind
        have leave : n.kind.isLeave = true := by rw [kind]; rfl
        refine (translateLeave_holdsUnlessErrors standard n).bind fun stmt => .pure ?_
        rintro leaves rfl stop others behind
        obtain rfl := emits_nowhere behind
        exact .leave found leave leaves
      · rename_i notIf notSwitch notLeave
        refine (translateNode_holdsUnlessErrors standard chains (standard.builtIn found)).bind
          fun stmts => ?_
        refine ih.bind fun (others, next) => .pure ?_
        rintro emits ⟨stmt, rfl, single | ⟨loop, body, loops, inner⟩⟩ rfl stop behind onward
        · obtain ⟨single, passes⟩ := single
          have leave : n.kind.isLeave = false := by
            cases kind : n.kind <;> simp_all [NodeKind.isLeave]
          have choice : n.kind.isBranching = false := by
            cases kind : n.kind <;> simp_all [NodeKind.isBranching]
          exact .plain found leave choice single passes (emits stop behind onward)
        · exact .loop found loop loops inner (emits stop behind onward)

theorem translateStack_holdsUnlessErrors (standard : env.graph.Standard denv)
    (chains : EmitsChains env.graph path chain) {stack : NodeId}
    (found : env.graph.node? stack = some n) :
    HoldsUnlessErrors (translateStack env chain stack)
      (EmitsUpTo env.graph path (.nodes stack (env.graph.children stack))) := by
  have children : env.graph.children stack = n.children := by simp [Graph.children, found]
  rw [translateStack, found, children]
  dsimp only
  split
  · exact translateChildren_holdsUnlessErrors standard chains stack _
  · exact (HoldsUnlessErrors.report _).bind fun _ => .pure fun absurdity => absurdity.elim

/-- A stack that is not in the graph leads nowhere. -/
theorem emits_missing {g : Graph} {stack : NodeId} (stop : Option NodeId)
    (gone : g.node? stack = none) : g.Emits path stop (.nodes stack (g.children stack)) [] := by
  have children : g.children stack = [] := by simp [Graph.children, gone]
  have nowhere : g.execTarget? stack "Out" = none := by simp [Graph.execTarget?, gone]
  rw [children]
  exact .out (nowhere ▸ .nowhere)

/-- The translation of the stacks from one on emits their statements, if there is depth enough. -/
theorem TranslationEnv.chainWithin_holdsUnlessErrors (standard : env.graph.Standard denv)
    (depth : Nat)
    {path : List NodeId} (within : env.graph.WithinDepth depth path) :
    EmitsChains env.graph path (env.chainWithin depth path) := by
  intro start stop
  induction depth generalizing path start stop with
  | zero => exact absurd rfl within.positive
  | succ depth ih =>
    unfold chainWithin
    split
    · rename_i stopped
      exact stopped.symm ▸ .pure .stopped
    rename_i goesOn
    split
    · exact (HoldsUnlessErrors.report _).bind fun _ => .pure fun absurdity => absurdity.elim
    rename_i new
    have outside : start ∉ path := by simpa using new
    cases found : env.graph.node? start with
    | none =>
      simp only [translateStack, found]
      exact .pure (.stack goesOn outside (emits_missing stop found))
    | some n =>
      have within := within.cons outside (OrderedMap.mem_keys_of_get? found)
      refine (translateStack_holdsUnlessErrors standard (ih within) found).bind
        fun (stmts, next) => ?_
      cases next with
      | none =>
        refine .pure fun emits => .stack goesOn outside ?_
        simpa using emits stop [] .nowhere
      | some next =>
        refine (ih within next stop).bind fun others => .pure fun behind emits => ?_
        exact .stack goesOn outside (emits stop others behind)

end NodeScript
