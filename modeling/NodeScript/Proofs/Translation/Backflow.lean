import NodeScript.Proofs.Translation.Linkage
import NodeScript.Proofs.Translation.Simulation
import NodeScript.Proofs.Translation.Stacks

/-!
When the translation reports that execution flows back. A report is made of a stack on the path, so
execution does come back to that stack. If none is made, the ways that were followed keep off the
path; the stacks of a branch are followed to the join only, but from the join on they are followed
behind the choice, with the same path.
-/

namespace NodeScript

open Relation
open NodeScript.Graph (KeepsOff)

/-- The error of a stack that execution flows back into. -/
def CompilerError.IsBackflow (e : CompilerError) : Prop :=
  e.message = "Execution flows back into this stack; use a loop node instead"

theorem CompilerError.AboutValues.not_isBackflow {e : CompilerError} (about : e.AboutValues) :
    ¬ e.IsBackflow := by
  intro back
  exact about (by rw [show e.message = _ from back]; rfl)

section Rules

variable {α β : Type} {m : Translate α} {P : α → Prop} {cycle : Prop} {clear : α → Prop}

/-- A part of the translation adds to the errors, with a result as told. It reports that execution
flows back only if there is a cycle; if it does not report that, the ways it followed are clear. -/
def ReportsBackflow (m : Translate α) (P : α → Prop) (cycle : Prop) (clear : α → Prop) : Prop :=
  ∀ s, ∃ reported, (m.run s).2.context.errors = s.context.errors ++ reported ∧ P (m.run s).1 ∧
    ((∃ e ∈ reported, e.IsBackflow) → cycle) ∧
      ((∀ e ∈ reported, ¬ e.IsBackflow) → clear (m.run s).1)

namespace ReportsBackflow

theorem pure {a : α} (holds : P a) (clears : clear a) : ReportsBackflow (pure a) P cycle clear :=
  fun s => ⟨[], (List.append_nil _).symm, holds, by simp, fun _ => clears⟩

theorem bind {f : α → Translate β} {Q : β → Prop} {clear' : β → Prop}
    (first : ReportsBackflow m P cycle clear)
    (next : ∀ a, P a → ReportsBackflow (f a) Q cycle fun b => clear a → clear' b) :
    ReportsBackflow (m >>= f) Q cycle clear' := by
  intro s
  obtain ⟨earlier, errors, holds, back, clears⟩ := first s
  obtain ⟨later, errors', holds', back', clears'⟩ := next _ holds (m.run s).2
  refine ⟨earlier ++ later, ?_, holds', ?_, ?_⟩
  · rw [← List.append_assoc, ← errors]
    exact errors'
  · rintro ⟨e, member, flows⟩
    rcases List.mem_append.mp member with early | late
    · exact back ⟨e, early, flows⟩
    · exact back' ⟨e, late, flows⟩
  · intro none
    rw [List.forall_mem_append] at none
    exact clears' none.2 (clears none.1)

theorem mono {Q : α → Prop} {clear' : α → Prop} (reports : ReportsBackflow m P cycle clear)
    (weaker : ∀ a, P a → Q a) (clearer : ∀ a, P a → clear a → clear' a) :
    ReportsBackflow m Q cycle clear' := by
  intro s
  obtain ⟨reported, errors, holds, back, clears⟩ := reports s
  exact ⟨reported, errors, weaker _ holds, back, fun none => clearer _ holds (clears none)⟩

theorem modify {f : TranslatorState → TranslatorState}
    (errors : ∀ s, (f s).context.errors = s.context.errors) :
    ReportsBackflow (modify f : Translate Unit) (fun _ => True) cycle fun _ => True :=
  fun s => ⟨[], (errors s).trans (List.append_nil _).symm, trivial, by simp, fun _ => trivial⟩

theorem report {e : CompilerError} (about : e.AboutValues) :
    ReportsBackflow (reportError e) (fun _ => True) cycle fun _ => True := by
  refine fun s => ⟨[e], rfl, trivial, ?_, fun _ => trivial⟩
  rintro ⟨e', member, flows⟩
  obtain rfl := List.mem_singleton.mp member
  exact absurd flows about.not_isBackflow

theorem reportBackflow {stack : NodeId} (flows : cycle) :
    ReportsBackflow (reportAt stack "Execution flows back into this stack; use a loop node instead")
      (fun _ => True) cycle fun _ => False := by
  refine fun s => ⟨_, rfl, trivial, fun _ => flows, ?_⟩
  intro none
  exact none _ (List.mem_singleton_self _) rfl

end ReportsBackflow

theorem Evaluates.reports {m : Evaluate α} {ok : TranslatorState → α → Prop}
    (told : ∀ s, Evaluates m s (ok s)) :
    ReportsBackflow m.run (fun r => ∀ e, r = .error e → e.AboutValues) cycle fun _ => True := by
  intro s
  obtain ⟨unchanged, about⟩ := told s
  refine ⟨[], by rw [unchanged, List.append_nil], fun e failed => ?_, by simp, fun _ => trivial⟩
  rw [show (m.run.run s).1 = .error e from failed] at about
  exact about

end Rules

section Parts

variable {env : TranslationEnv} {denv : DefinitionEnv} {chain : BranchTranslator}
  {path : List NodeId} {n : Node} {origin : NodeId} {cycle : Prop}

theorem TranslationEnv.inputOrDefault_reportsBackflow (standard : env.graph.Standard denv)
    (node : NodeId)
    (input type : String) :
    ReportsBackflow (env.inputOrDefault node input type) (fun _ => True) cycle fun _ => True := by
  unfold inputOrDefault
  refine (Evaluates.reports fun s => inputExpr_evaluates standard.builtIn s node input).bind
    fun result told => ?_
  cases result with
  | ok e => exact .pure trivial fun _ => trivial
  | error e =>
    exact (ReportsBackflow.report (told e rfl)).bind fun _ _ => .pure trivial fun _ _ => trivial

theorem traceStatement_reportsBackflow (env : TranslationEnv) (node : NodeId) :
    ReportsBackflow (traceStatement env node) (fun _ => True) cycle fun _ => True := by
  intro s
  refine ⟨[], ?_, trivial, by simp, fun _ => trivial⟩
  obtain ⟨context, _ | record, bound, closed, names⟩ := s
  · exact (List.append_nil _).symm
  · exact (List.append_nil _).symm

theorem bindOutput_reportsBackflow (node : NodeId) (output base : String) :
    ReportsBackflow (bindOutput node output base) (fun _ => True) cycle fun _ => True :=
  fun _ => ⟨[], (List.append_nil _).symm, trivial, by simp, fun _ => trivial⟩

theorem inBlock_reportsBackflow {body : Translate (List Stmt)} {P clear : List Stmt → Prop}
    (reports : ReportsBackflow body P cycle clear) : ReportsBackflow (inBlock body) P cycle clear :=
  fun s => reports s

/-- The translation of the stacks from one on reports that execution flows back among them, up to
the stop, if all of them come behind the path. -/
def ChainsReportBackflow (g : Graph) (origin : NodeId) (path : List NodeId)
    (chain : BranchTranslator) : Prop :=
  ∀ start stop, g.Ahead origin path start →
    ReportsBackflow (chain start stop) (fun _ => True) (g.FlowsBack origin)
      fun _ => KeepsOff g.LinksTo path stop start

theorem translateLeave_reportsBackflow (standard : env.graph.Standard denv) (n : Node) :
    ReportsBackflow (translateLeave env n) (fun _ => True) cycle fun _ => True := by
  unfold translateLeave
  split
  · exact (env.inputOrDefault_reportsBackflow standard _ _ _).bind fun value _ =>
      .pure trivial fun _ => trivial
  · exact .pure trivial trivial

theorem translateAssignment_reportsBackflow (standard : env.graph.Standard denv) (n : Node)
    (id : VariableId) :
    ReportsBackflow (translateAssignment env n id) (fun _ => True) cycle fun _ => True := by
  unfold translateAssignment
  split
  · exact (ReportsBackflow.report (nodeError_aboutValues (by simp))).bind fun _ _ =>
      .pure trivial fun _ => trivial
  · exact (env.inputOrDefault_reportsBackflow standard _ _ _).bind fun value _ =>
      .pure trivial fun _ => trivial

theorem translateCall_reportsBackflow (standard : env.graph.Standard denv) {call : CallDecl}
    (kind : n.kind = .call call) :
    ReportsBackflow (translateCall env n call) (fun _ => True) cycle fun _ => True := by
  unfold translateCall
  refine (Evaluates.reports fun s => TranslationEnv.callExpr_evaluates
    (TranslationEnv.inputExpr_evaluates standard.builtIn s n.id) kind).bind fun result told => ?_
  cases result with
  | error e =>
    exact (ReportsBackflow.report (told e rfl)).bind fun _ _ => .pure trivial fun _ _ => trivial
  | ok value =>
    dsimp only
    split
    · exact (bindOutput_reportsBackflow _ _ _).bind fun name _ => .pure trivial fun _ _ => trivial
    · exact .pure trivial fun _ => trivial

variable (chains : ChainsReportBackflow env.graph origin path chain)

include chains

theorem translateBranch_reportsBackflow {target : Option NodeId} (join : Option NodeId)
    (ahead : ∀ t, target = some t → env.graph.Ahead origin path t) :
    ReportsBackflow (translateBranch chain target join) (fun _ => True) (env.graph.FlowsBack origin)
      fun _ => ∀ t, target = some t → KeepsOff env.graph.LinksTo path join t := by
  cases target with
  | none => exact .pure trivial nofun
  | some start =>
    refine inBlock_reportsBackflow ((chains start join (ahead start rfl)).mono
      (fun _ _ => trivial) ?_)
    rintro _ _ keeps _ ⟨⟩
    exact keeps

/-- What is known of a choice: it goes on at the join of its branches, and these keep off the path
before the join. -/
def ChoiceReportsBackflow (g : Graph) (origin : NodeId) (path : List NodeId) (n : Node)
    (m : Translate (Stmt × Option NodeId)) : Prop :=
  ReportsBackflow m (fun r => r.2 = g.joinBehind? n) (g.FlowsBack origin) fun _ =>
    ∀ name ∈ n.kind.exitNames, ∀ t, g.execTarget? n.id name = some t →
      KeepsOff g.LinksTo path (g.joinBehind? n) t

theorem translateIf_reportsBackflow (standard : env.graph.Standard denv) (choice : n.kind = .branch)
    (ahead : ∀ name ∈ n.kind.exitNames, ∀ t, env.graph.execTarget? n.id name = some t →
      env.graph.Ahead origin path t) :
    ChoiceReportsBackflow env.graph origin path n (translateIf env chain n) := by
  have names : n.kind.exitNames = ["Then", "Else"] := by rw [choice]; rfl
  unfold ChoiceReportsBackflow translateIf
  rw [names] at ahead ⊢
  rw [← joinBehind?_branch choice]
  refine (env.inputOrDefault_reportsBackflow standard _ _ _).bind fun condition _ => ?_
  refine (translateBranch_reportsBackflow chains _ (ahead "Then" (by simp))).bind
    fun thenBody _ => ?_
  refine (translateBranch_reportsBackflow chains _ (ahead "Else" (by simp))).bind
    fun elseBody _ => ?_
  refine .pure rfl fun elseKeeps thenKeeps _ => ?_
  exact List.forall_mem_cons.mpr ⟨thenKeeps, List.forall_mem_singleton.mpr elseKeeps⟩

theorem translateCases_reportsBackflow (join : Option NodeId) {cases : List Int64}
    (ahead : ∀ label ∈ cases, ∀ t, env.graph.execTarget? n.id (caseOutput label) = some t →
      env.graph.Ahead origin path t) :
    ReportsBackflow (translateCases env chain n join cases) (fun _ => True)
      (env.graph.FlowsBack origin)
      fun _ => ∀ label ∈ cases, ∀ t, env.graph.execTarget? n.id (caseOutput label) = some t →
        KeepsOff env.graph.LinksTo path join t := by
  induction cases with
  | nil => exact .pure trivial nofun
  | cons label rest ih =>
    rw [List.forall_mem_cons] at ahead
    refine (translateBranch_reportsBackflow chains join ahead.1).bind fun body _ => ?_
    refine (ih ahead.2).bind fun others _ => .pure trivial fun later here => ?_
    exact List.forall_mem_cons.mpr ⟨here, later⟩

theorem translateSwitch_reportsBackflow (standard : env.graph.Standard denv) {cases : List Int64}
    (choice : n.kind = .select cases)
    (ahead : ∀ name ∈ n.kind.exitNames, ∀ t, env.graph.execTarget? n.id name = some t →
      env.graph.Ahead origin path t) :
    ChoiceReportsBackflow env.graph origin path n (translateSwitch env chain n cases) := by
  have names : n.kind.exitNames = cases.map caseOutput ++ ["Default"] := by rw [choice]; rfl
  unfold ChoiceReportsBackflow translateSwitch
  rw [names] at ahead ⊢
  refine (env.inputOrDefault_reportsBackflow standard _ _ _).bind fun value _ => ?_
  rw [joinBehind?_select choice]
  have labelled : ∀ label ∈ cases, caseOutput label ∈ cases.map caseOutput ++ ["Default"] :=
    fun label member => List.mem_append_left _ (List.mem_map_of_mem member)
  refine (translateCases_reportsBackflow chains _ fun label member =>
    ahead _ (labelled label member)).bind fun bodies _ => ?_
  refine (translateBranch_reportsBackflow chains _ (ahead "Default" (by simp))).bind
    fun fallback _ => ?_
  refine .pure rfl fun otherwise cases _ => ?_
  rw [List.forall_mem_append, List.forall_mem_map]
  exact ⟨cases, by simpa using otherwise⟩

theorem translateWhile_reportsBackflow (standard : env.graph.Standard denv)
    (ahead : ∀ t, env.graph.execTarget? n.id "Body" = some t → env.graph.Ahead origin path t) :
    ReportsBackflow (translateWhile env chain n) (fun _ => True)
      (env.graph.FlowsBack origin) fun _ =>
      ∀ t, env.graph.execTarget? n.id "Body" = some t →
        KeepsOff env.graph.LinksTo path none t := by
  unfold translateWhile
  refine (env.inputOrDefault_reportsBackflow standard _ _ _).bind fun condition _ => ?_
  exact (translateBranch_reportsBackflow chains none ahead).bind fun body _ =>
    .pure trivial fun keeps _ => keeps

theorem translateForEach_reportsBackflow (standard : env.graph.Standard denv)
    (ahead : ∀ t, env.graph.execTarget? n.id "Body" = some t → env.graph.Ahead origin path t) :
    ReportsBackflow (translateForEach env chain n) (fun _ => True)
      (env.graph.FlowsBack origin) fun _ =>
      ∀ t, env.graph.execTarget? n.id "Body" = some t →
        KeepsOff env.graph.LinksTo path none t := by
  unfold translateForEach
  refine (env.inputOrDefault_reportsBackflow standard _ _ _).bind fun collection _ => ?_
  refine (bindOutput_reportsBackflow _ _ _).bind fun item _ => ?_
  refine (translateBranch_reportsBackflow chains none ahead).bind fun body _ => ?_
  refine ReportsBackflow.bind (ReportsBackflow.modify fun _ => rfl) fun _ _ => ?_
  exact .pure trivial fun _ keeps _ _ => keeps

theorem translateNode_reportsBackflow (standard : env.graph.Standard denv)
    (builtIn : n.kind.isBuiltIn = true)
    (ahead : n.kind.isLoop = true → ∀ t, env.graph.execTarget? n.id "Body" = some t →
      env.graph.Ahead origin path t) :
    ReportsBackflow (translateNode env chain n) (fun _ => True)
      (env.graph.FlowsBack origin) fun _ =>
      n.kind.isLoop = true → ∀ t, env.graph.execTarget? n.id "Body" = some t →
        KeepsOff env.graph.LinksTo path none t := by
  unfold translateNode
  split
  · rename_i kind
    refine (translateAssignment_reportsBackflow standard n _).mono
      (fun _ _ => trivial) fun _ _ _ loop => ?_
    simp [kind, NodeKind.isLoop] at loop
  · rename_i kind
    refine (translateCall_reportsBackflow standard kind).mono
      (fun _ _ => trivial) fun _ _ _ loop => ?_
    simp [kind, NodeKind.isLoop] at loop
  · rename_i kind
    have loop : n.kind.isLoop = true := by rw [kind]; rfl
    exact (translateWhile_reportsBackflow chains standard (ahead loop)).mono (fun _ _ => trivial)
      fun _ _ keeps _ => keeps
  · rename_i kind
    have loop : n.kind.isLoop = true := by rw [kind]; rfl
    exact (translateForEach_reportsBackflow chains standard (ahead loop)).mono (fun _ _ => trivial)
      fun _ _ keeps _ => keeps
  · rename_i custom
    rw [custom] at builtIn
    exact absurd builtIn (by simp [NodeKind.isBuiltIn])
  · rename_i notWhile notForEach _
    refine ReportsBackflow.bind (ReportsBackflow.report
      (nodeError_aboutValues (by simp [toString]))) fun _ _ => ?_
    refine .pure trivial fun _ loop => ?_
    cases kind : n.kind <;> simp_all [NodeKind.isLoop]

/-- What is known of the rest of a stack: execution goes on behind the path, and if what lies behind
keeps off the path then so does all that the rest links the stack to. -/
def RestReportsBackflow (g : Graph) (origin : NodeId) (path : List NodeId) (links : NodeId → Prop)
    (m : Translate (List Stmt × Option NodeId)) : Prop :=
  ReportsBackflow m (fun r => ∀ t, r.2 = some t → g.Ahead origin path t)
    (g.FlowsBack origin) fun r =>
    ∀ stop, (∀ t, r.2 = some t → KeepsOff g.LinksTo path stop t) →
      ∀ t, links t → KeepsOff g.LinksTo path stop t

omit chains in
theorem RestReportsBackflow.narrow {g : Graph} {links links' : NodeId → Prop}
    {m : Translate (List Stmt × Option NodeId)}
    (reports : RestReportsBackflow g origin path links m)
    (narrower : ∀ t, links' t → links t) : RestReportsBackflow g origin path links' m :=
  ReportsBackflow.mono reports (fun _ ahead => ahead) fun _ _ keeps stop behind t link =>
    keeps stop behind t (narrower t link)

omit chains in
/-- The join of a choice comes behind the path, and what keeps off the path before the join and
behind it does so altogether. -/
theorem ChoiceReportsBackflow.rest {stack child : NodeId} {rest : List NodeId}
    {m : Translate (Stmt × Option NodeId)} (standard : env.graph.Standard denv)
    (found : env.graph.node? child = some n) (choice : n.kind.isBranching = true)
    (ahead : ∀ t, env.graph.LinksBehind stack (child :: rest) t → env.graph.Ahead origin path t)
    (reports : ChoiceReportsBackflow env.graph origin path n m) (hook : List Stmt) :
    RestReportsBackflow env.graph origin path (env.graph.LinksBehind stack (child :: rest)) do
      let (statement, join) ← m
      return (hook ++ [statement], join) := by
  have links : ∀ t, env.graph.LinksBehind stack (child :: rest) t ↔
      ∃ name ∈ n.kind.exitNames, env.graph.execTarget? n.id name = some t :=
    fun t => Graph.linksBehind_choice standard found choice
  unfold ChoiceReportsBackflow at reports
  refine ReportsBackflow.bind reports ?_
  rintro ⟨statement, join⟩ joined
  obtain rfl : join = env.graph.joinBehind? n := joined
  refine .pure (fun j atJ => ?_) ?_
  · obtain ⟨some, always⟩ := Graph.leadsTo_of_joinOfWays? atJ
    obtain ⟨way, member⟩ := List.exists_mem_of_ne_nil _ some
    obtain ⟨t, leads, sure⟩ := always way member
    obtain ⟨name, exit, target⟩ := List.mem_map.mp member
    exact (ahead t ((links t).mpr ⟨name, exit, target.trans leads⟩)).onward sure.linked
  · intro keeps stop behind t link
    obtain ⟨name, exit, target⟩ := (links t).mp link
    exact (keeps name exit t target).through behind

theorem translateChildren_reportsBackflow (standard : env.graph.Standard denv) (stack : NodeId)
    {rest : List NodeId}
    (ahead : ∀ t, env.graph.LinksBehind stack rest t → env.graph.Ahead origin path t) :
    RestReportsBackflow env.graph origin path (env.graph.LinksBehind stack rest)
      (translateChildren env chain stack rest) := by
  induction rest with
  | nil =>
    refine .pure (fun t target => ahead t (Graph.linksBehind_nil.mpr target)) ?_
    exact fun stop behind t link => behind t (Graph.linksBehind_nil.mp link)
  | cons child rest ih =>
    unfold translateChildren
    split
    · rename_i gone
      refine (ih fun t link => ahead t ((Graph.linksBehind_absent gone).mpr link)).narrow ?_
      exact fun t => (Graph.linksBehind_absent gone).mp
    · rename_i n found
      refine (traceStatement_reportsBackflow env child).bind fun hook _ => ?_
      have exits (choice : n.kind.isBranching = true) : ∀ name ∈ n.kind.exitNames, ∀ t,
          env.graph.execTarget? n.id name = some t → env.graph.Ahead origin path t :=
        fun name exit t target =>
          ahead t ((Graph.linksBehind_choice standard found choice).mpr ⟨name, exit, target⟩)
      split
      · rename_i kind
        have choice : n.kind.isBranching = true := by rw [kind]; rfl
        have reports := translateIf_reportsBackflow chains standard kind (exits choice)
        exact (reports.rest standard found choice ahead hook).mono (fun _ next => next)
          fun _ _ keeps _ => keeps
      · rename_i cases kind
        have choice : n.kind.isBranching = true := by rw [kind]; rfl
        have reports := translateSwitch_reportsBackflow chains standard kind (exits choice)
        exact (reports.rest standard found choice ahead hook).mono (fun _ next => next)
          fun _ _ keeps _ => keeps
      · rename_i kind
        have leave : n.kind.isLeave = true := by rw [kind]; rfl
        refine (translateLeave_reportsBackflow standard n).bind fun stmt _ => .pure ?_ ?_
        · exact fun t target => absurd target (Option.some_ne_none t).symm
        exact fun _ _ stop _ t link => absurd link (Graph.not_linksBehind_leave found leave)
      · rename_i notIf notSwitch notLeave
        have leave : n.kind.isLeave = false := by
          cases kind : n.kind <;> simp_all [NodeKind.isLeave]
        have choice : n.kind.isBranching = false := by
          cases kind : n.kind <;> simp_all [NodeKind.isBranching]
        have links : ∀ t, env.graph.LinksBehind stack (child :: rest) t ↔
            (n.kind.isLoop = true ∧ env.graph.execTarget? n.id "Body" = some t) ∨
              env.graph.LinksBehind stack rest t :=
          fun t => Graph.linksBehind_passed found leave choice
        refine (translateNode_reportsBackflow chains standard
          (standard.builtIn found) fun loop t target =>
          ahead t ((links t).mpr (.inl ⟨loop, target⟩))).bind fun stmts _ => ?_
        refine ReportsBackflow.bind (ih fun t link => ahead t ((links t).mpr (.inr link))) ?_
        rintro ⟨others, next⟩ goes
        refine .pure goes ?_
        intro keepsRest keepsBody _ stop behind t link
        rcases (links t).mp link with ⟨loop, target⟩ | later
        · exact (keepsBody loop t target).before_stop
        · exact keepsRest stop behind t later

theorem translateStack_reportsBackflow (standard : env.graph.Standard denv) {stack : NodeId}
    (found : env.graph.node? stack = some n) (enters : env.graph.EntersStacks origin)
    (reached : ReflTransGen env.graph.LinksTo origin stack)
    (ahead : ∀ t, env.graph.LinksTo stack t → env.graph.Ahead origin path t) :
    RestReportsBackflow env.graph origin path (env.graph.LinksTo stack)
      (translateStack env chain stack) := by
  have children : env.graph.children stack = n.children := by simp [Graph.children, found]
  rw [translateStack, found]
  dsimp only
  split
  · rw [← children]
    exact translateChildren_reportsBackflow chains standard stack ahead
  · rename_i other
    have other : n.kind.isStack = false := by simpa using other
    have empty := enters reached found other
    refine ReportsBackflow.bind (ReportsBackflow.report
      (nodeError_aboutValues (by simp [toString]))) fun _ _ => ?_
    refine .pure (fun t target => absurd target (Option.some_ne_none t).symm) ?_
    exact fun _ stop _ t link => absurd link (standard.not_linksTo_of_empty found other empty)

end Parts

/-- The translation of the stacks from one on reports that execution flows back among all that it is
linked to, if there is depth enough. -/
theorem TranslationEnv.chainWithin_reportsBackflow {env : TranslationEnv} {denv : DefinitionEnv}
    (standard : env.graph.Standard denv) {origin : NodeId}
    (enters : env.graph.EntersStacks origin) {depth : Nat} {path : List NodeId}
    (within : env.graph.WithinDepth depth path) :
    ChainsReportBackflow env.graph origin path (env.chainWithin depth path) := by
  intro start stop ahead
  induction depth generalizing path start stop with
  | zero => exact absurd rfl within.positive
  | succ depth ih =>
    unfold chainWithin
    split
    · -- what lies behind the stop is followed by the one who has set it
      rename_i stopped
      exact .pure trivial (stopped ▸ KeepsOff.at_stop)
    split
    · rename_i busy
      have inside : start ∈ path := by simpa using busy
      exact (ReportsBackflow.reportBackflow (ahead.flowsBack inside)).bind fun _ _ =>
        .pure trivial fun absurdity => absurdity.elim
    rename_i new
    have outside : start ∉ path := by simpa using new
    cases found : env.graph.node? start with
    | none =>
      simp only [translateStack, found]
      refine .pure trivial (KeepsOff.of_next outside fun t link => ?_)
      exact absurd link (Graph.not_linksTo_missing found)
    | some n =>
      -- the path grows by a stack of the graph, so what is left of the depth is enough for the rest
      have within := within.cons outside (OrderedMap.mem_keys_of_get? found)
      have chains : ChainsReportBackflow env.graph origin (start :: path)
          (env.chainWithin depth (start :: path)) := fun _ _ => ih within _ _
      have rest := translateStack_reportsBackflow chains standard found enters ahead.reached
        fun t => ahead.next
      refine ReportsBackflow.bind rest ?_
      rintro ⟨statements, next⟩ goes
      cases next with
      | none =>
        refine .pure trivial fun keeps => KeepsOff.of_next outside fun t link => ?_
        exact keeps stop (fun t target => absurd target (Option.some_ne_none t).symm) t link
      | some next =>
        refine (chains next stop (goes next rfl)).bind fun others _ => .pure trivial ?_
        intro behind keeps
        refine KeepsOff.of_next outside fun t link => keeps stop ?_ t link
        rintro _ ⟨⟩
        exact behind

end NodeScript
