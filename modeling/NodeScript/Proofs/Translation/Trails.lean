import NodeScript.Proofs.Code.Pieces
import NodeScript.Proofs.Translation.Simulation
import NodeScript.Proofs.Translation.Stacks

/-!
Which stacks are emitted where. The translation of stacks leaves a trail: the stacks in the order in
which their statements are emitted, with a trail of its own for each branch of a choice and for each
body of a loop. The trail can be told whatever is reported.
-/

namespace NodeScript

/-- The stacks whose statements are emitted one behind the other, with those inside choices and
loops. -/
inductive Trail where
  | done
  | stack (id : NodeId) (behind : Trail)
  /-- A choice and its join, with a trail for each output that leads out of it. -/
  | choice (node : NodeId) (join : Option NodeId) (exits : List String) (branches : String → Trail)
    (behind : Trail)
  | loop (node : NodeId) (body behind : Trail)

instance : Inhabited Trail := ⟨.done⟩

/-- The stacks of a trail, those in branches of choices among them, but without those in bodies of
loops. -/
def Trail.stacks : Trail → List NodeId
  | .done => []
  | .stack id behind => id :: behind.stacks
  | .choice _ _ exits branches behind =>
    (exits.flatMap fun name => (branches name).stacks) ++ behind.stacks
  | .loop _ _ behind => behind.stacks

/-- Whether a statement chooses between blocks. -/
def Stmt.isChoice : Stmt → Bool
  | .branch .. | .select .. => true
  | _ => false

theorem Stmt.isChoice_of_flat {stmt : Stmt} (flat : stmt.bodies = []) : stmt.isChoice = false := by
  cases stmt <;> simp_all [Stmt.bodies, Stmt.isChoice]

theorem NodeKind.single_of_isLeave {kind : NodeKind} (leave : kind.isLeave = true) :
    kind.isBranching = false ∧ kind.isLoop = false := by
  cases kind <;> simp_all [isLoop, isLeave, isBranching]

/-- A node of the graph that holds others. -/
def Graph.IsStack (g : Graph) (s : NodeId) : Prop :=
  ∃ n, g.node? s = some n ∧ n.kind.isStack = true

/-- What a part of the translation can result in. -/
def ResultsIn {α : Type} (m : Translate α) (a : α) : Prop := ∃ s, (m.run s).1 = a

namespace TranslationEnv

/-- The statements that a node of a stack becomes: the report that it runs, where runs are traced,
and its own, whatever the stacks become that it leads to. -/
inductive CodeOf (env : TranslationEnv) (c : NodeId) (n : Node) : List Stmt → Prop
  | leave {hook stmt} : n.kind.isLeave = true → ResultsIn (traceStatement env c) hook →
      ResultsIn (translateLeave env n) stmt → CodeOf env c n (hook ++ [stmt])
  | branch {hook chain r} : n.kind = .branch → ResultsIn (traceStatement env c) hook →
      ResultsIn (translateIf env chain n) r → CodeOf env c n (hook ++ [r.1])
  | select {hook chain labels r} : n.kind = .select labels → ResultsIn (traceStatement env c) hook →
      ResultsIn (translateSwitch env chain n labels) r → CodeOf env c n (hook ++ [r.1])
  | other {hook chain own} : n.kind.isLeave = false → n.kind.isBranching = false →
      ResultsIn (traceStatement env c) hook → ResultsIn (translateNode env chain n) own →
      CodeOf env c n (hook ++ own)

/-- The statements of the nodes of a stack, one behind the other, up to the first that ends it. -/
inductive StackCode (env : TranslationEnv) : List NodeId → List Stmt → Prop
  | done : StackCode env [] []
  | absent {c rest code} : env.graph.node? c = none → StackCode env rest code →
      StackCode env (c :: rest) code
  | last {c rest n code} : env.graph.node? c = some n →
      n.kind.isLeave = true ∨ n.kind.isBranching = true → env.CodeOf c n code →
      StackCode env (c :: rest) code
  | next {c rest n code others} : env.graph.node? c = some n → n.kind.isLeave = false →
      n.kind.isBranching = false → env.CodeOf c n code → StackCode env rest others →
      StackCode env (c :: rest) (code ++ others)

/-- The statements of a passage up to a stop and their trail, with the stacks of the path around it:
those of its nodes, in their order, and nothing else. A stack of the path is not emitted again, and
nothing is emitted for what is not a stack. -/
inductive Follows (env : TranslationEnv) :
    (path : List NodeId) → (stop : Option NodeId) → Passage → List Stmt → Trail → Prop
  | stopped {path s} : Follows env path (some s) (.way (some s)) [] .done
  | nowhere {path stop} : Follows env path stop (.way none) [] .done
  | again {path stop s} : stop ≠ some s → s ∈ path → Follows env path stop (.way (some s)) [] .done
  | closed {path stop s} : stop ≠ some s → ¬ env.graph.IsStack s →
      Follows env path stop (.way (some s)) [] .done
  | stack {path stop s stmts trail} : stop ≠ some s → s ∉ path → env.graph.IsStack s →
      Follows env (s :: path) stop (.nodes s (env.graph.children s)) stmts trail →
      Follows env path stop (.way (some s)) stmts (.stack s trail)
  | out {path stop s stmts trail} :
      Follows env path stop (.way (env.graph.execTarget? s "Out")) stmts trail →
      Follows env path stop (.nodes s []) stmts trail
  | absent {path stop s c rest stmts trail} : env.graph.node? c = none →
      Follows env path stop (.nodes s rest) stmts trail →
      Follows env path stop (.nodes s (c :: rest)) stmts trail
  | leave {path stop s c rest n code} : env.graph.node? c = some n → n.kind.isLeave = true →
      env.CodeOf c n code → Follows env path stop (.nodes s (c :: rest)) code .done
  | choice {path stop s c rest n hook stmt bodies branches stmts trail} :
      env.graph.node? c = some n → n.kind.isBranching = true → env.CodeOf c n (hook ++ [stmt]) →
      stmt.bodies = n.kind.exitNames.map bodies →
      (∀ name ∈ n.kind.exitNames, Follows env path (env.graph.joinBehind? n)
        (.way (env.graph.execTarget? n.id name)) (bodies name) (branches name)) →
      Follows env path stop (.way (env.graph.joinBehind? n)) stmts trail →
      Follows env path stop (.nodes s (c :: rest)) (hook ++ stmt :: stmts)
        (.choice n.id (env.graph.joinBehind? n) n.kind.exitNames branches trail)
  | loop {path stop s c rest n hook stmt body inner stmts trail} :
      env.graph.node? c = some n → n.kind.isLoop = true → env.CodeOf c n (hook ++ [stmt]) →
      stmt.bodies = [body] →
      Follows env path none (.way (env.graph.execTarget? n.id "Body")) body inner →
      Follows env path stop (.nodes s rest) stmts trail →
      Follows env path stop (.nodes s (c :: rest)) (hook ++ stmt :: stmts) (.loop n.id inner trail)
  | plain {path stop s c rest n code stmts trail} : env.graph.node? c = some n →
      n.kind.isLeave = false → n.kind.isBranching = false → n.kind.isLoop = false →
      env.CodeOf c n code → Follows env path stop (.nodes s rest) stmts trail →
      Follows env path stop (.nodes s (c :: rest)) (code ++ stmts) trail

end TranslationEnv

section Rules

variable {α β : Type} {m : Translate α} {P : α → Prop} {Q : β → Prop}

/-- The result of a part of the translation is as told, whatever came before and is reported. -/
def ResultSatisfies (m : Translate α) (P : α → Prop) : Prop := ∀ s, P (m.run s).1

namespace ResultSatisfies

theorem pure {a : α} (holds : P a) : ResultSatisfies (pure a) P := fun _ => holds

theorem bind {f : α → Translate β} (first : ResultSatisfies m P)
    (next : ∀ a, P a → ResultSatisfies (f a) Q) :
    ResultSatisfies (m >>= f) Q :=
  fun s => next _ (first s) (m.run s).2

theorem mono {R : α → Prop} (satisfies : ResultSatisfies m P) (weaker : ∀ a, P a → R a) :
    ResultSatisfies m R :=
  fun s => weaker _ (satisfies s)

theorem any : ResultSatisfies m fun _ => True := fun _ => trivial

theorem results : ResultSatisfies m (ResultsIn m) := fun s => ⟨s, rfl⟩

theorem and {R : α → Prop} (satisfies : ResultSatisfies m P) (satisfies' : ResultSatisfies m R) :
    ResultSatisfies m fun a => P a ∧ R a := fun s => ⟨satisfies s, satisfies' s⟩

theorem of_results {a : α} (satisfies : ResultSatisfies m P) (results : ResultsIn m a) : P a := by
  obtain ⟨s, rfl⟩ := results
  exact satisfies s

end ResultSatisfies

end Rules

section Parts

variable {env : TranslationEnv} {denv : DefinitionEnv} {chain : BranchTranslator}
  {path : List NodeId} {n : Node}

/-- The translation of the stacks from one on leaves a trail. -/
def FollowsChains (env : TranslationEnv) (path : List NodeId) (chain : BranchTranslator) : Prop :=
  ∀ start stop, ResultSatisfies (chain start stop) fun stmts =>
    ∃ trail, env.Follows path stop (.way (some start)) stmts trail

/-- Statements of one node without any inside. -/
def FlatFrom (c : NodeId) (stmts : List Stmt) : Prop :=
  ∀ stmt ∈ stmts, stmt.bodies = [] ∧ stmt.origin = some c

theorem FlatFrom.singleton {c : NodeId} {stmt : Stmt} (flat : stmt.bodies = [])
    (origin : stmt.origin = some c) : FlatFrom c [stmt] := by
  intro _ member
  rw [List.mem_singleton.mp member]
  exact ⟨flat, origin⟩

theorem traceStatement_follows (env : TranslationEnv) (node : NodeId) :
    ResultSatisfies (traceStatement env node) (FlatFrom node) := by
  intro s
  obtain ⟨context, trace, bound, closed, names⟩ := s
  cases trace with
  | none => exact nofun
  | some record => exact .singleton rfl rfl

theorem translateBranch_follows (chains : FollowsChains env path chain)
    (target join : Option NodeId) :
    ResultSatisfies (translateBranch chain target join) fun stmts =>
      ∃ trail, env.Follows path join (.way target) stmts trail := by
  cases target with
  | none => exact .pure ⟨_, .nowhere⟩
  | some start => exact fun s => chains start join s

/-- What is known of a choice: its bodies are those of its outputs, and each leaves a trail up to
the join of all of them. -/
def FollowsChoice (env : TranslationEnv) (path : List NodeId) (n : Node) :
    Stmt × Option NodeId → Prop
  | (stmt, join) => join = env.graph.joinBehind? n ∧
    ∃ bodies, stmt.bodies = n.kind.exitNames.map bodies ∧ ∀ name ∈ n.kind.exitNames,
      ∃ trail, env.Follows path join (.way (env.graph.execTarget? n.id name)) (bodies name) trail

theorem translateIf_follows (chains : FollowsChains env path chain) (choice : n.kind = .branch) :
    ResultSatisfies (translateIf env chain n) (FollowsChoice env path n) := by
  unfold translateIf
  refine ResultSatisfies.any.bind fun condition _ => ?_
  refine (translateBranch_follows chains _ _).bind fun thenBody thenTrail => ?_
  refine (translateBranch_follows chains _ _).bind fun elseBody elseTrail => .pure ?_
  refine ⟨joinBehind?_branch choice, fun name => if name = "Then" then thenBody else elseBody,
    ?_, ?_⟩
  · simp [choice, NodeKind.exitNames, Stmt.bodies]
  · simp only [choice, NodeKind.exitNames, List.forall_mem_cons, List.not_mem_nil,
      if_true, show "Else" ≠ "Then" by decide, if_false]
    exact ⟨thenTrail, elseTrail, fun _ absurdity => absurdity.elim⟩

theorem translateCases_follows (chains : FollowsChains env path chain) (join : Option NodeId)
    (cases : List Int64) :
    ResultSatisfies (translateCases env chain n join cases) fun made =>
      made.map SwitchCase.label = cases ∧ ∀ c ∈ made, ∃ trail, env.Follows path join
        (.way (env.graph.execTarget? n.id (caseOutput c.label))) c.body trail := by
  induction cases with
  | nil => exact .pure ⟨rfl, nofun⟩
  | cons label rest ih =>
    refine (translateBranch_follows chains _ _).bind fun body trail => ?_
    refine ih.bind fun others ⟨labels, trails⟩ => .pure ⟨congrArg (label :: ·) labels, ?_⟩
    exact List.forall_mem_cons.mpr ⟨trail, trails⟩

/-- No two cases share an output and none has that of the fallback, so each body is found by the name
of its output. -/
theorem bodyBehind_exitNames {cases : List Int64} {made : List SwitchCase}
    (nodup : (cases.map caseOutput ++ ["Default"]).Nodup)
    (labels : made.map SwitchCase.label = cases) (fallback : List Stmt) :
    (∀ c ∈ made, bodyBehind made fallback (caseOutput c.label) = c.body) ∧
      bodyBehind made fallback "Default" = fallback := by
  subst labels
  rw [List.map_map] at nodup
  obtain ⟨single, -, apart⟩ := List.nodup_append.mp nodup
  constructor
  · intro c member
    have found : made.find? (fun d => caseOutput d.label = caseOutput c.label) = some c :=
      (find?_key_iff single).mpr ⟨member, rfl⟩
    rw [bodyBehind, found]
    rfl
  · have none : made.find? (fun d => caseOutput d.label = "Default") = none :=
      List.find?_eq_none.mpr fun c member => by
        simpa using apart _ (List.mem_map_of_mem member) _ (List.mem_singleton_self _)
    rw [bodyBehind, none]
    rfl

theorem translateSwitch_follows {cases : List Int64} (chains : FollowsChains env path chain)
    (choice : n.kind = .select cases) (nodup : n.kind.exitNames.Nodup) :
    ResultSatisfies (translateSwitch env chain n cases) (FollowsChoice env path n) := by
  rw [choice] at nodup
  unfold translateSwitch
  refine ResultSatisfies.any.bind fun value _ => ?_
  refine (translateCases_follows chains _ cases).bind fun made ⟨labels, trails⟩ => ?_
  refine (translateBranch_follows chains _ _).bind fun fallback otherwise => .pure ?_
  obtain ⟨byCase, byDefault⟩ := bodyBehind_exitNames nodup labels fallback
  subst labels
  refine ⟨joinBehind?_select choice, bodyBehind made fallback, ?_, ?_⟩
  · have own : made.map SwitchCase.body =
        made.map (bodyBehind made fallback ∘ caseOutput ∘ SwitchCase.label) :=
      List.map_congr_left fun c member => (byCase c member).symm
    simp only [choice, NodeKind.exitNames, List.map_append, List.map_cons, List.map_nil, byDefault,
      List.map_map]
    exact congrArg (· ++ [fallback]) own
  · rw [choice, NodeKind.exitNames, List.forall_mem_append, List.forall_mem_singleton, byDefault]
    simp only [List.forall_mem_map]
    exact ⟨fun c member => byCase c member ▸ trails c member, otherwise⟩

theorem translateLeave_follows (env : TranslationEnv) (n : Node) :
    ResultSatisfies (translateLeave env n) fun stmt =>
      stmt.bodies = [] ∧ stmt.origin = some n.id := by
  unfold translateLeave
  split
  · exact ResultSatisfies.any.bind fun value _ => .pure ⟨rfl, rfl⟩
  · exact .pure ⟨rfl, rfl⟩

theorem translateAssignment_follows (env : TranslationEnv) (n : Node) (id : VariableId) :
    ResultSatisfies (translateAssignment env n id) (FlatFrom n.id) := by
  unfold translateAssignment
  split
  · exact ResultSatisfies.any.bind fun _ _ => .pure nofun
  · exact ResultSatisfies.any.bind fun value _ => .pure (.singleton rfl rfl)

theorem translateCall_follows (env : TranslationEnv) (n : Node) (call : CallDecl) :
    ResultSatisfies (translateCall env n call) (FlatFrom n.id) := by
  unfold translateCall
  refine ResultSatisfies.any.bind fun result _ => ?_
  cases result with
  | error e => exact ResultSatisfies.any.bind fun _ _ => .pure nofun
  | ok value =>
    dsimp only
    split
    · exact ResultSatisfies.any.bind fun name _ => .pure (.singleton rfl rfl)
    · exact .pure (.singleton rfl rfl)

/-- What is known of the statements of a node that does not end its stack, whatever its body
becomes: nothing is inside them, or they are one that repeats the body. -/
def PassesNode (n : Node) (stmts : List Stmt) : Prop :=
  (n.kind.isLoop = false ∧ FlatFrom n.id stmts) ∨
    (n.kind.isLoop = true ∧ ∃ stmt, stmts = [stmt] ∧ stmt.isChoice = false ∧
      stmt.origin = some n.id)

theorem translateNode_follows (builtIn : n.kind.isBuiltIn = true) :
    ResultSatisfies (translateNode env chain n) (PassesNode n) := by
  unfold translateNode
  split
  · rename_i kind
    exact (translateAssignment_follows env n _).mono fun _ flat => .inl ⟨by rw [kind]; rfl, flat⟩
  · rename_i kind
    exact (translateCall_follows env n _).mono fun _ flat => .inl ⟨by rw [kind]; rfl, flat⟩
  · rename_i kind
    refine ResultSatisfies.any.bind fun condition _ => ResultSatisfies.any.bind fun body _ =>
      .pure ?_
    exact .inr ⟨by rw [kind]; rfl, _, rfl, rfl, rfl⟩
  · rename_i kind
    refine ResultSatisfies.any.bind fun collection _ => ResultSatisfies.any.bind fun item _ => ?_
    refine ResultSatisfies.any.bind fun body _ => ResultSatisfies.any.bind fun _ _ => .pure ?_
    exact .inr ⟨by rw [kind]; rfl, _, rfl, rfl, rfl⟩
  · rename_i custom
    rw [custom] at builtIn
    exact absurd builtIn Bool.false_ne_true
  · rename_i notWhile notForEach _
    refine ResultSatisfies.any.bind fun _ _ => .pure (.inl ⟨?_, nofun⟩)
    cases kind : n.kind <;> simp_all [NodeKind.isLoop]

theorem flatFrom_of_trace {c : NodeId} {hook : List Stmt}
    (traced : ResultsIn (traceStatement env c) hook) : FlatFrom c hook :=
  (traceStatement_follows env c).of_results traced

theorem translateIf_choice (env : TranslationEnv) (chain : BranchTranslator) (n : Node) :
    ResultSatisfies (translateIf env chain n) fun r =>
      r.1.isChoice = true ∧ r.1.origin = some n.id :=
  ResultSatisfies.any.bind fun _ _ => ResultSatisfies.any.bind fun _ _ =>
    ResultSatisfies.any.bind fun _ _ => .pure ⟨rfl, rfl⟩

theorem translateSwitch_choice (env : TranslationEnv) (chain : BranchTranslator) (n : Node)
    (cases : List Int64) :
    ResultSatisfies (translateSwitch env chain n cases) fun r =>
      r.1.isChoice = true ∧ r.1.origin = some n.id :=
  ResultSatisfies.any.bind fun _ _ => ResultSatisfies.any.bind fun _ _ =>
    ResultSatisfies.any.bind fun _ _ => .pure ⟨rfl, rfl⟩

namespace TranslationEnv.CodeOf

variable {c : NodeId} {hook stmts : List Stmt} {stmt : Stmt}

/-- All statements of a node come from it. -/
theorem origin (code : env.CodeOf c n stmts) (filed : n.id = c)
    (builtIn : n.kind.isBuiltIn = true) : ∀ stmt ∈ stmts, stmt.origin = some c := by
  have traced {hook : List Stmt} (made : ResultsIn (traceStatement env c) hook) :
      ∀ stmt ∈ hook, stmt.origin = some c :=
        fun stmt member => (flatFrom_of_trace made stmt member).2
  subst filed
  cases code with
  | leave _ hook own =>
    have origin := ((translateLeave_follows env n).of_results own).2
    exact List.forall_mem_append.mpr ⟨traced hook, List.forall_mem_singleton.mpr origin⟩
  | branch _ hook own =>
    have origin := ((translateIf_choice env _ n).of_results own).2
    exact List.forall_mem_append.mpr ⟨traced hook, List.forall_mem_singleton.mpr origin⟩
  | select _ hook own =>
    have origin := ((translateSwitch_choice env _ n _).of_results own).2
    exact List.forall_mem_append.mpr ⟨traced hook, List.forall_mem_singleton.mpr origin⟩
  | other _ _ hook own =>
    refine List.forall_mem_append.mpr ⟨traced hook, ?_⟩
    rcases (translateNode_follows builtIn).of_results own with ⟨-, flat⟩ | ⟨-, stmt, rfl, -, origin⟩
    · exact fun stmt member => (flat stmt member).2
    · exact List.forall_mem_singleton.mpr origin

/-- Nothing is inside the statements of a node that neither chooses nor repeats. -/
theorem flat (code : env.CodeOf c n stmts) (builtIn : n.kind.isBuiltIn = true)
    (choice : n.kind.isBranching = false) (loop : n.kind.isLoop = false) :
    ∀ stmt ∈ stmts, stmt.bodies = [] := by
  have traced {hook : List Stmt} (made : ResultsIn (traceStatement env c) hook) :
      ∀ stmt ∈ hook, stmt.bodies = [] := fun stmt member => (flatFrom_of_trace made stmt member).1
  cases code with
  | leave _ hook own =>
    have flat := ((translateLeave_follows env n).of_results own).1
    exact List.forall_mem_append.mpr ⟨traced hook, List.forall_mem_singleton.mpr flat⟩
  | branch kind | select kind => simp [kind, NodeKind.isBranching] at choice
  | other _ _ hook own =>
    refine List.forall_mem_append.mpr ⟨traced hook, ?_⟩
    rcases (translateNode_follows builtIn).of_results own with ⟨-, flat⟩ | ⟨repeats, -⟩
    · exact fun stmt member => (flat stmt member).1
    · exact absurd repeats (by simp [loop])

/-- The last statement of a choice chooses, and nothing is inside those in front of it. -/
theorem choice (code : env.CodeOf c n (hook ++ [stmt])) (choice : n.kind.isBranching = true) :
    (∀ stmt ∈ hook, stmt.bodies = []) ∧ stmt.isChoice = true := by
  have traced (made : ResultsIn (traceStatement env c) hook) : ∀ stmt ∈ hook, stmt.bodies = [] :=
    fun stmt member => (flatFrom_of_trace made stmt member).1
  generalize whole : hook ++ [stmt] = stmts at code
  cases code with
  | leave leaves => simp [(NodeKind.single_of_isLeave leaves).1] at choice
  | other _ single => exact absurd choice (by simp [single])
  | branch _ hook own =>
    obtain ⟨rfl, last⟩ := List.append_inj' whole rfl
    obtain rfl := List.singleton_injective last
    exact ⟨traced hook, ((translateIf_choice env _ n).of_results own).1⟩
  | select _ hook own =>
    obtain ⟨rfl, last⟩ := List.append_inj' whole rfl
    obtain rfl := List.singleton_injective last
    exact ⟨traced hook, ((translateSwitch_choice env _ n _).of_results own).1⟩

/-- The last statement of a loop does not choose, and nothing is inside those in front of it. -/
theorem loop (code : env.CodeOf c n (hook ++ [stmt])) (builtIn : n.kind.isBuiltIn = true)
    (loop : n.kind.isLoop = true) :
    (∀ stmt ∈ hook, stmt.bodies = []) ∧ stmt.isChoice = false := by
  generalize whole : hook ++ [stmt] = stmts at code
  cases code with
  | leave leaves => simp [(NodeKind.single_of_isLeave leaves).2] at loop
  | branch kind | select kind => simp [kind, NodeKind.isLoop] at loop
  | other _ _ traced own =>
    rcases (translateNode_follows builtIn).of_results own with
      ⟨single, -⟩ | ⟨-, last, rfl, choice, -⟩
    · exact absurd loop (by simp [single])
    · obtain ⟨rfl, same⟩ := List.append_inj' whole rfl
      obtain rfl := List.singleton_injective same
      exact ⟨fun s member => (flatFrom_of_trace traced s member).1, choice⟩

end TranslationEnv.CodeOf

/-- The body of a loop leaves a trail. -/
def FollowsLoop (env : TranslationEnv) (path : List NodeId) (n : Node) (stmts : List Stmt) : Prop :=
  ∃ stmt body trail, stmts = [stmt] ∧ stmt.bodies = [body] ∧
    env.Follows path none (.way (env.graph.execTarget? n.id "Body")) body trail

theorem translateNode_followsLoop (chains : FollowsChains env path chain)
    (loop : n.kind.isLoop = true) :
    ResultSatisfies (translateNode env chain n) (FollowsLoop env path n) := by
  unfold translateNode
  cases kind : n.kind with
  | repeated =>
    refine ResultSatisfies.any.bind fun condition _ => ?_
    refine (translateBranch_follows chains _ _).bind fun body ⟨trail, follows⟩ => .pure ?_
    exact ⟨_, body, trail, rfl, rfl, follows⟩
  | forEach =>
    refine ResultSatisfies.any.bind fun collection _ => ResultSatisfies.any.bind fun item _ => ?_
    refine (translateBranch_follows chains _ _).bind fun body ⟨trail, follows⟩ => ?_
    refine ResultSatisfies.any.bind fun _ _ => .pure ?_
    exact ⟨_, body, trail, rfl, rfl, follows⟩
  | _ => simp [kind, NodeKind.isLoop] at loop

/-- What is known of statements and of where execution goes on behind them: with the statements of a
trail from there on they are those of a passage. -/
def FollowsUpTo (env : TranslationEnv) (path : List NodeId) (passage : Passage) :
    List Stmt × Option NodeId → Prop
  | (stmts, next) => ∀ stop others trail, env.Follows path stop (.way next) others trail →
    ∃ whole, env.Follows path stop passage (stmts ++ others) whole

theorem follows_nowhere {stop : Option NodeId} {stmts : List Stmt} {trail : Trail}
    (follows : env.Follows path stop (.way none) stmts trail) : stmts = [] := by
  cases follows
  rfl

theorem FollowsChoice.upTo {stack child : NodeId} {rest : List NodeId}
    (found : env.graph.node? child = some n) (choice : n.kind.isBranching = true) {hook : List Stmt}
    {r : Stmt × Option NodeId} (code : env.CodeOf child n (hook ++ [r.1]))
    (follows : FollowsChoice env path n r) :
    FollowsUpTo env path (.nodes stack (child :: rest)) (hook ++ [r.1], r.2) := by
  obtain ⟨joined, bodies, inner, trails⟩ := follows
  choose! branches branch using trails
  rintro stop others trail behind
  rw [joined] at behind branch
  rw [List.append_assoc, List.singleton_append]
  exact ⟨_, .choice found choice code inner branch behind⟩

theorem translateChildren_follows (standard : env.graph.Standard denv)
    (chains : FollowsChains env path chain) (stack : NodeId) (rest : List NodeId) :
    ResultSatisfies (translateChildren env chain stack rest)
      (FollowsUpTo env path (.nodes stack rest)) := by
  induction rest with
  | nil => exact .pure fun stop others trail follows => ⟨trail, .out follows⟩
  | cons child rest ih =>
    unfold translateChildren
    split
    · rename_i gone
      refine ih.mono fun _ follows stop others trail behind => ?_
      obtain ⟨whole, follows⟩ := follows stop others trail behind
      exact ⟨whole, .absent gone follows⟩
    · rename_i n found
      refine ResultSatisfies.results.bind fun hook traced => ?_
      split
      · rename_i kind
        have choice : n.kind.isBranching = true := by rw [kind]; rfl
        have given := translateIf_follows chains kind
        refine (given.and .results).bind fun r becomes => .pure ?_
        obtain ⟨follows, made⟩ := becomes
        exact follows.upTo found choice (.branch kind traced made)
      · rename_i cases kind
        have choice : n.kind.isBranching = true := by rw [kind]; rfl
        have given := translateSwitch_follows chains kind (standard.nodup_exitNames found choice)
        refine (given.and .results).bind fun r becomes => .pure ?_
        obtain ⟨follows, made⟩ := becomes
        exact follows.upTo found choice (.select kind traced made)
      · rename_i kind
        have leave : n.kind.isLeave = true := by rw [kind]; rfl
        refine ResultSatisfies.results.bind fun stmt made => .pure ?_
        rintro stop others trail behind
        obtain rfl := follows_nowhere behind
        rw [List.append_nil]
        exact ⟨_, .leave found leave (.leave leave traced made)⟩
      · rename_i notIf notSwitch notLeave
        have leave : n.kind.isLeave = false := by
          cases kind : n.kind <;> simp_all [NodeKind.isLeave]
        have choice : n.kind.isBranching = false := by
          cases kind : n.kind <;> simp_all [NodeKind.isBranching]
        -- a loop has its body followed; what another node becomes has nothing inside
        have inner : ResultSatisfies (translateNode env chain n) fun stmts =>
            n.kind.isLoop = true → FollowsLoop env path n stmts := by
          by_cases loop : n.kind.isLoop = true
          · exact (translateNode_followsLoop chains loop).mono fun _ follows _ => follows
          · exact fun _ isLoop => absurd isLoop loop
        refine (inner.and .results).bind fun stmts becomes => ih.bind fun r follows => .pure ?_
        obtain ⟨inner, made⟩ := becomes
        obtain ⟨others, next⟩ := r
        intro stop later trail behind
        obtain ⟨whole, follows⟩ := follows stop later trail behind
        have code : env.CodeOf child n (hook ++ stmts) := .other leave choice traced made
        rw [List.append_assoc]
        cases loop : n.kind.isLoop with
        | false => exact ⟨whole, .plain found leave choice loop code follows⟩
        | true =>
          obtain ⟨stmt, body, trail, rfl, bodies, within⟩ := inner loop
          rw [List.append_assoc, List.singleton_append]
          exact ⟨_, .loop found loop code bodies within follows⟩

theorem translateStack_follows (standard : env.graph.Standard denv)
    (chains : FollowsChains env path chain) {stack : NodeId}
    (found : env.graph.node? stack = some n) (holds : n.kind.isStack = true) :
    ResultSatisfies (translateStack env chain stack)
      (FollowsUpTo env path (.nodes stack (env.graph.children stack))) := by
  have children : env.graph.children stack = n.children := by simp [Graph.children, found]
  rw [translateStack, found, children]
  simp only [holds, if_true]
  exact translateChildren_follows standard chains stack _

end Parts

/-- The translation of the stacks from one on leaves a trail, if there is depth enough. -/
theorem TranslationEnv.chainWithin_follows {env : TranslationEnv} {denv : DefinitionEnv}
    (standard : env.graph.Standard denv) (depth : Nat) {path : List NodeId}
    (within : env.graph.WithinDepth depth path) :
    FollowsChains env path (env.chainWithin depth path) := by
  intro start stop
  induction depth generalizing path start stop with
  | zero => exact absurd rfl within.positive
  | succ depth ih =>
    unfold chainWithin
    split
    · rename_i stopped
      exact stopped.symm ▸ .pure ⟨_, .stopped⟩
    rename_i goesOn
    split
    · rename_i busy
      have inside : start ∈ path := by simpa using busy
      exact ResultSatisfies.any.bind fun _ _ => .pure ⟨_, .again goesOn inside⟩
    rename_i new
    have outside : start ∉ path := by simpa using new
    cases found : env.graph.node? start with
    | none =>
      simp only [translateStack, found]
      refine .pure ⟨_, .closed goesOn ?_⟩
      rintro ⟨n, present, _⟩
      rw [found] at present
      exact absurd present (by simp)
    | some n =>
      cases holds : n.kind.isStack with
      | false =>
        simp only [translateStack, found, holds]
        refine ResultSatisfies.bind (P := fun r => r = ([], none))
          (ResultSatisfies.any.bind fun _ _ => .pure rfl) ?_
        rintro _ rfl
        refine .pure ⟨_, .closed goesOn ?_⟩
        rintro ⟨n', present, stack⟩
        obtain rfl := Option.some.inj (found.symm.trans present)
        exact absurd stack (by simp [holds])
      | true =>
        have within := within.cons outside (OrderedMap.mem_keys_of_get? found)
        have stack : env.graph.IsStack start := ⟨n, found, holds⟩
        refine (translateStack_follows standard (ih within) found holds).bind fun r follows => ?_
        obtain ⟨stmts, next⟩ := r
        cases next with
        | none =>
          obtain ⟨trail, follows⟩ := follows stop [] _ .nowhere
          rw [List.append_nil] at follows
          exact .pure ⟨_, .stack goesOn outside stack follows⟩
        | some next =>
          refine (ih within next stop).bind fun others trailed => .pure ?_
          obtain ⟨onward, behind⟩ := trailed
          obtain ⟨trail, follows⟩ := follows stop others onward behind
          exact ⟨_, .stack goesOn outside stack follows⟩

/-- The statements of a function leave a trail from the function on. -/
theorem TranslationEnv.functionBody_follows (env : TranslationEnv) {denv : DefinitionEnv}
    (standard : env.graph.Standard denv) (function : NodeId) (s : TranslatorState) :
    ∃ trail, env.Follows [] none (.way (some function))
      ((env.functionBody function).run s).1 trail :=
  env.chainWithin_follows standard _ (.of_lt (Nat.lt_succ_self _)) function none s

end NodeScript
