import NodeScript.Proofs.Code.Pieces
import NodeScript.Proofs.Translation.Locals
import NodeScript.Proofs.Translation.Stacks

/-!
Locals in what is emitted. A statement reads the locals that were declared before it in its block or
in a block around it, the item of a loop in the body of the loop only; and the call that a local
holds the result of stands in the declaration and nowhere else.
-/

namespace NodeScript

mutual

/-- The names of the locals that a statement and the statements in it make, in their order: results
of calls and items of loops, but no variables, whose types are declared. -/
def Stmt.localNames : Stmt → List String
  | .declare _ none name _ => [name]
  | .branch _ _ thenBody elseBody =>
    Stmt.localNamesAll thenBody ++ Stmt.localNamesAll elseBody
  | .select _ _ cases fallback => SwitchCase.localNamesAll cases ++ Stmt.localNamesAll fallback
  | .repeated _ _ body => Stmt.localNamesAll body
  | .forEach _ item _ body => item :: Stmt.localNamesAll body
  | _ => []

def Stmt.localNamesAll : List Stmt → List String
  | [] => []
  | s :: rest => s.localNames ++ Stmt.localNamesAll rest

def SwitchCase.localNamesAll : List SwitchCase → List String
  | [] => []
  | .mk _ body :: rest => Stmt.localNamesAll body ++ SwitchCase.localNamesAll rest

end

/-- Statements in their order, with the locals that may be read before and behind them: what they
say stands for what their nodes ask for where these locals may be read. -/
inductive Scoped (env : TranslationEnv) : Scope → List Stmt → Scope → Prop
  | nil {scope} : Scoped env scope [] scope
  | hook {scope node index rest after} : Scoped env scope rest after →
      Scoped env scope (.effect (some node) (traceCall env.graph.name index) :: rest) after
  | assign {scope id v value rest after child} {n : Node} :
      env.graph.node? child = some n → n.kind = .setVariable id →
      env.graph.variableDecl? id = some v → env.Denotes scope (.input n.id "Value") value →
      Scoped env scope rest after →
      Scoped env scope (.assign (some n.id) (.ident (sanitize v.name)) value :: rest) after
  | effect {scope call value rest after child} {n : Node} :
      env.graph.node? child = some n → n.kind = .call call →
      env.Denotes scope (.call n) value → Scoped env scope rest after →
      Scoped env scope (.effect (some n.id) value :: rest) after
  | declare {scope call name value rest after child} {n : Node} :
      env.graph.node? child = some n → n.kind = .call call →
      env.Denotes scope (.call n) value →
      Scoped env ((⟨n.id, "Result"⟩, name) :: scope) rest after →
      Scoped env scope (.declare (some n.id) none name (some value) :: rest) after
  | branch {scope condition thenBody elseBody inner inner' rest after child} {n : Node} :
      env.graph.node? child = some n → n.kind = .branch →
      env.Denotes scope (.input n.id "Condition") condition →
      Scoped env scope thenBody inner → Scoped env scope elseBody inner' →
      Scoped env scope rest after →
      Scoped env scope (.branch (some n.id) condition thenBody elseBody :: rest) after
  | select {scope labels value cases fallback inner rest after child} {n : Node}
      (inners : SwitchCase → Scope) : env.graph.node? child = some n → n.kind = .select labels →
      env.Denotes scope (.input n.id "Value") value →
      (∀ c ∈ cases, Scoped env scope c.body (inners c)) → Scoped env scope fallback inner →
      Scoped env scope rest after →
      Scoped env scope (.select (some n.id) value cases fallback :: rest) after
  | repeated {scope condition body inner rest after child} {n : Node} :
      env.graph.node? child = some n → n.kind = .repeated →
      env.Denotes scope (.input n.id "Condition") condition → Scoped env scope body inner →
      Scoped env scope rest after →
      Scoped env scope (.repeated (some n.id) condition body :: rest) after
  | forEach {scope item collection body inner rest after child} {n : Node} :
      env.graph.node? child = some n → n.kind = .forEach →
      env.Denotes scope (.input n.id "Collection") collection →
      Scoped env ((⟨n.id, "Item"⟩, item) :: scope) body inner → Scoped env scope rest after →
      Scoped env scope (.forEach (some n.id) item collection body :: rest) after
  | leave {scope rest after} {child : NodeId} {value : Option Expr}
      {n : Node} :
      env.graph.node? child = some n → n.kind = .leave →
      (∀ e, value = some e → env.Denotes scope (.input n.id "Value") e) →
      Scoped env scope rest after →
      Scoped env scope (.leave (some n.id) value :: rest) after

namespace TranslationEnv

/-- The expression in a statement, and the site that it was emitted for. -/
inductive ExpressionFor (env : TranslationEnv) : Stmt → Site → Expr → Prop
  | assign {child n id target value} : env.graph.node? child = some n → n.kind = .setVariable id →
      ExpressionFor env (.assign (some n.id) target value) (.input n.id "Value") value
  | effect {child n call value} : env.graph.node? child = some n → n.kind = .call call →
      ExpressionFor env (.effect (some n.id) value) (.call n) value
  | declare {child n call name value} : env.graph.node? child = some n → n.kind = .call call →
      ExpressionFor env (.declare (some n.id) none name (some value)) (.call n) value
  | branch {child n condition thenBody elseBody} : env.graph.node? child = some n →
      n.kind = .branch →
      ExpressionFor env (.branch (some n.id) condition thenBody elseBody)
        (.input n.id "Condition") condition
  | select {child n labels value cases fallback} : env.graph.node? child = some n →
      n.kind = .select labels →
      ExpressionFor env (.select (some n.id) value cases fallback) (.input n.id "Value") value
  | repeated {child n condition body} : env.graph.node? child = some n → n.kind = .repeated →
      ExpressionFor env (.repeated (some n.id) condition body) (.input n.id "Condition") condition
  | forEach {child n item collection body} : env.graph.node? child = some n → n.kind = .forEach →
      ExpressionFor env (.forEach (some n.id) item collection body)
        (.input n.id "Collection") collection
  | leave {child n value} : env.graph.node? child = some n → n.kind = .leave →
      ExpressionFor env (.leave (some n.id) (some value)) (.input n.id "Value") value

end TranslationEnv

/-- The expression in a statement, apart from the place that is assigned. -/
def Stmt.said? : Stmt → Option Expr
  | .declare _ _ _ value | .leave _ value => value
  | .assign _ _ e | .effect _ e | .branch _ e _ _ | .select _ e _ _ | .repeated _ e _
  | .forEach _ _ e _ => some e
  | .comment _ _ => none

/-- The locals that a statement makes for what is behind it in its block. -/
def Stmt.declared : Stmt → Scope
  | .declare (some node) none name _ => [(⟨node, "Result"⟩, name)]
  | _ => []

/-- The locals that a statement makes for the blocks inside it. -/
def Stmt.items : Stmt → Scope
  | .forEach (some node) item _ _ => [(⟨node, "Item"⟩, item)]
  | _ => []

/-- A statement stands in a block, at any depth, and the locals that may be read where it stands:
those that may be read in front of the block, those that are declared in front of the statement, in
its block or in one around it, and the items of the loops around it. -/
inductive StandsWhere : Scope → List Stmt → Stmt → Scope → Prop
  | here {scope stmt rest} : StandsWhere scope (stmt :: rest) stmt scope
  | behind {scope first rest stmt visible} :
    StandsWhere (first.declared ++ scope) rest stmt visible →
      StandsWhere scope (first :: rest) stmt visible
  | inside {scope first rest body stmt visible} : body ∈ first.bodies →
      StandsWhere (first.items ++ scope) body stmt visible →
      StandsWhere scope (first :: rest) stmt visible

variable {env : TranslationEnv} {chain : BranchTranslator} {child : NodeId} {n : Node}
  {scope middle after visible : Scope} {a b rest body block : List Stmt} {stmt first : Stmt}
  {e : Expr}

theorem exists_standsWhere_of_mem (member : first ∈ block) (scope : Scope) :
    ∃ here rest, ∀ {stmt visible}, StandsWhere here (first :: rest) stmt visible →
      StandsWhere scope block stmt visible := by
  induction block generalizing scope with
  | nil => exact nomatch member
  | cons other rest ih =>
    rcases List.mem_cons.mp member with rfl | later
    · exact ⟨scope, rest, id⟩
    · obtain ⟨here, rest, stands⟩ := ih later (other.declared ++ scope)
      exact ⟨here, rest, fun standing => .behind (stands standing)⟩

/-- Every statement of a block stands somewhere in it. -/
theorem StandsIn.standsWhere (standing : StandsIn stmt block) (scope : Scope) :
    ∃ visible, StandsWhere scope block stmt visible := by
  induction standing generalizing scope with
  | here member =>
    obtain ⟨here, rest, stands⟩ := exists_standsWhere_of_mem member scope
    exact ⟨here, stands .here⟩
  | @inside outer _ _ member within _ ih =>
    obtain ⟨here, rest, stands⟩ := exists_standsWhere_of_mem member scope
    obtain ⟨visible, inner⟩ := ih (outer.items ++ here)
    exact ⟨visible, stands (.inside within inner)⟩

theorem Scoped.behind (reads : Scoped env scope (first :: rest) after) :
    Scoped env (first.declared ++ scope) rest after := by
  cases reads with
  | declare _ _ _ rest | hook rest | assign _ _ _ _ rest | effect _ _ _ rest
  | branch _ _ _ _ _ rest | select _ _ _ _ _ _ rest | repeated _ _ _ _ rest
  | forEach _ _ _ _ rest | leave _ _ _ rest => exact rest

theorem Scoped.inside (reads : Scoped env scope (first :: rest) after)
    (within : body ∈ first.bodies) :
    ∃ inner, Scoped env (first.items ++ scope) body inner := by
  cases reads with
  | branch _ _ _ thenBody elseBody =>
    rcases List.mem_pair.mp within with rfl | rfl
    · exact ⟨_, thenBody⟩
    · exact ⟨_, elseBody⟩
  | select inners _ _ _ cases fallback =>
    rcases List.mem_append.mp within with inCase | inFallback
    · obtain ⟨c, member, rfl⟩ := List.mem_map.mp inCase
      exact ⟨_, cases c member⟩
    · obtain rfl := List.mem_singleton.mp inFallback
      exact ⟨_, fallback⟩
  | repeated _ _ _ inner | forEach _ _ _ inner =>
    obtain rfl := List.mem_singleton.mp within
    exact ⟨_, inner⟩
  | declare | hook | assign | effect | leave => exact nomatch within

/-- What the first statement says stands for what its node asks for, unless it is the statement that
reports that the node runs. -/
theorem Scoped.denoted_first (reads : Scoped env scope (first :: rest) after)
    (said : first.said? = some e) :
    (∃ index, e = traceCall env.graph.name index) ∨
      ∃ site, env.ExpressionFor first site e ∧ env.Denotes scope site e := by
  cases reads with
  | hook =>
    obtain rfl := Option.some.inj said
    exact .inl ⟨_, rfl⟩
  | assign found kind _ denotes =>
    obtain rfl := Option.some.inj said
    exact .inr ⟨_, .assign found kind, denotes⟩
  | effect found kind denotes =>
    obtain rfl := Option.some.inj said
    exact .inr ⟨_, .effect found kind, denotes⟩
  | declare found kind denotes =>
    obtain rfl := Option.some.inj said
    exact .inr ⟨_, .declare found kind, denotes⟩
  | branch found kind denotes =>
    obtain rfl := Option.some.inj said
    exact .inr ⟨_, .branch found kind, denotes⟩
  | select _ found kind denotes =>
    obtain rfl := Option.some.inj said
    exact .inr ⟨_, .select found kind, denotes⟩
  | repeated found kind denotes =>
    obtain rfl := Option.some.inj said
    exact .inr ⟨_, .repeated found kind, denotes⟩
  | forEach found kind denotes =>
    obtain rfl := Option.some.inj said
    exact .inr ⟨_, .forEach found kind, denotes⟩
  | leave found kind denotes =>
    obtain rfl : _ = some e := said
    exact .inr ⟨_, .leave found kind, denotes _ rfl⟩

/-- What a statement says stands for what its node asks for where the statement stands. -/
theorem Scoped.denoted (reads : Scoped env scope block after)
    (stands : StandsWhere scope block stmt visible) (said : stmt.said? = some e) :
    (∃ index, e = traceCall env.graph.name index) ∨
      ∃ site, env.ExpressionFor stmt site e ∧ env.Denotes visible site e := by
  induction stands generalizing after with
  | here => exact reads.denoted_first said
  | behind _ ih => exact ih reads.behind said
  | inside within _ ih =>
    obtain ⟨inner, reads⟩ := reads.inside within
    exact ih reads said

theorem Scoped.append (first : Scoped env scope a middle) (next : Scoped env middle b after) :
    Scoped env scope (a ++ b) after := by
  induction first with
  | nil => exact next
  | hook _ ih => exact .hook (ih next)
  | assign found kind declared value _ ih => exact .assign found kind declared value (ih next)
  | effect found kind value _ ih => exact .effect found kind value (ih next)
  | declare found kind value _ ih => exact .declare found kind value (ih next)
  | branch found kind condition thenBody elseBody _ _ _ ih =>
    exact .branch found kind condition thenBody elseBody (ih next)
  | select inners found kind value cases fallback _ _ _ ih =>
    exact .select inners found kind value cases fallback (ih next)
  | repeated found kind condition body _ _ ih => exact .repeated found kind condition body (ih next)
  | forEach found kind collection body _ _ ih => exact .forEach found kind collection body (ih next)
  | leave found kind value _ ih => exact .leave found kind value (ih next)

theorem Stmt.localNamesAll_append :
    Stmt.localNamesAll (a ++ b) = Stmt.localNamesAll a ++ Stmt.localNamesAll b := by
  induction a with
  | nil => rfl
  | cons s rest ih => simp only [List.cons_append, Stmt.localNamesAll, ih, List.append_assoc]

/-- Statements are well scoped, and the names are those of their locals. -/
def ScopedBlock (env : TranslationEnv) (scope : Scope) (stmts : List Stmt) (made : List String)
    (after : Scope) : Prop :=
  made = Stmt.localNamesAll stmts ∧ Scoped env scope stmts after

theorem ScopedBlock.append {made made' : List String} (first : ScopedBlock env scope a made middle)
    (next : ScopedBlock env middle b made' after) :
    ScopedBlock env scope (a ++ b) (made ++ made') after :=
  ⟨by rw [first.1, next.1, Stmt.localNamesAll_append], first.2.append next.2⟩

/-- Statements of a block whose locals are not read behind it. -/
def ScopedInside (env : TranslationEnv) (scope : Scope) (stmts : List Stmt) (made : List String)
    (after : Scope) : Prop :=
  after = scope ∧ ∃ inner, ScopedBlock env scope stmts made inner

theorem TranslationEnv.inputOrDefault_declares (builtIn : env.graph.BuiltIn) (node : NodeId)
    (input type : String) :
    Declares (env.inputOrDefault node input type) fun scope e made after =>
      made = [] ∧ after = scope ∧ env.Denotes scope (.input node input) e := by
  have told : Declares (env.inputExpr node input).run fun scope r made after =>
      made = [] ∧ after = scope ∧ ∀ e, r = .ok e → env.Denotes scope (.input node input) e :=
    .of_evaluates (fun s => inputExpr_evaluates builtIn s node input) Denotes.mono
  refine told.bind fun result => ?_
  cases result with
  | ok e =>
    refine .pure fun _ => ?_
    rintro scope made ⟨rfl, rfl, told⟩
    exact ⟨rfl, rfl, told e rfl⟩
  | error e => exact .reported e _

theorem traceStatement_declares (env : TranslationEnv) (node : NodeId) :
    Declares (traceStatement env node) (ScopedBlock env) := by
  intro s
  obtain ⟨context, trace, bound, closed, names⟩ := s
  cases trace with
  | none => exact ⟨List.prefix_rfl, fun _ scope within =>
      ⟨[], scope, .of_same rfl rfl, within, rfl, .nil⟩⟩
  | some record => exact ⟨List.prefix_rfl, fun _ scope within =>
      ⟨[], scope, .of_same rfl rfl, within, rfl, .hook .nil⟩⟩

/-- The translation of the stacks from any one on gives well scoped statements. -/
def DeclaresChains (env : TranslationEnv) (chain : BranchTranslator) : Prop :=
  ∀ start stop, Declares (chain start stop) (ScopedBlock env)

theorem translateBranch_declares (chains : DeclaresChains env chain) (target join : Option NodeId) :
    Declares (translateBranch chain target join) (ScopedInside env) := by
  cases target with
  | none => exact .pure fun scope => ⟨rfl, scope, rfl, .nil⟩
  | some start => exact (chains start join).inBlock

theorem translateIf_declares (builtIn : env.graph.BuiltIn) (chains : DeclaresChains env chain)
    (found : env.graph.node? child = some n) (kind : n.kind = .branch) :
    Declares (translateIf env chain n) fun scope r => ScopedBlock env scope [r.1] := by
  unfold translateIf
  refine (env.inputOrDefault_declares builtIn _ _ _).bind fun condition => ?_
  refine (translateBranch_declares chains _ _).bind fun thenBody => ?_
  refine (translateBranch_declares chains _ _).bind fun elseBody => .pure ?_
  rintro scope scope _ ⟨rfl, inner', names', elseScoped⟩ scope _ ⟨rfl, inner, names, thenScoped⟩
    scope _ ⟨rfl, rfl, told⟩
  refine ⟨?_, .branch found kind told thenScoped elseScoped .nil⟩
  simp [Stmt.localNames, Stmt.localNamesAll, names, names']

theorem translateCases_declares (chains : DeclaresChains env chain) (join : Option NodeId)
    (labels : List Int64) :
    Declares (translateCases env chain n join labels) fun scope cases made after =>
      after = scope ∧ made = SwitchCase.localNamesAll cases ∧
        ∀ c ∈ cases, ∃ inner, Scoped env scope c.body inner := by
  induction labels with
  | nil => exact .pure fun scope => ⟨rfl, rfl, nofun⟩
  | cons label rest ih =>
    refine (translateBranch_declares chains _ _).bind fun body => ih.bind fun others => .pure ?_
    rintro scope scope _ ⟨rfl, names', sound⟩ scope _ ⟨rfl, inner, names, here⟩
    refine ⟨rfl, ?_, List.forall_mem_cons.mpr ⟨⟨inner, here⟩, sound⟩⟩
    rw [SwitchCase.localNamesAll, ← names, ← names', List.append_nil]

theorem translateSwitch_declares (builtIn : env.graph.BuiltIn) (chains : DeclaresChains env chain)
    {labels : List Int64} (found : env.graph.node? child = some n)
    (kind : n.kind = .select labels) :
    Declares (translateSwitch env chain n labels) fun scope r => ScopedBlock env scope [r.1] := by
  unfold translateSwitch
  refine (env.inputOrDefault_declares builtIn _ _ _).bind fun value => ?_
  refine (translateCases_declares chains _ labels).bind fun cases => ?_
  refine (translateBranch_declares chains _ _).bind fun fallback => .pure ?_
  rintro scope scope _ ⟨rfl, inner, names', otherwise⟩ scope _ ⟨rfl, names, sound⟩ scope _
    ⟨rfl, rfl, told⟩
  choose! inners sound using sound
  refine ⟨?_, .select inners found kind told sound otherwise .nil⟩
  simp [Stmt.localNames, Stmt.localNamesAll, names, names']

theorem translateLeave_declares (builtIn : env.graph.BuiltIn)
    (found : env.graph.node? child = some n) (kind : n.kind = .leave) :
    Declares (translateLeave env n) fun scope stmt => ScopedBlock env scope [stmt] := by
  unfold translateLeave
  split
  · refine (env.inputOrDefault_declares builtIn _ _ _).bind fun value => .pure ?_
    rintro scope scope _ ⟨rfl, rfl, told⟩
    refine ⟨rfl, .leave found kind ?_ .nil⟩
    rintro _ ⟨⟩
    exact told
  · exact .pure fun scope => ⟨rfl, .leave found kind nofun .nil⟩

theorem translateAssignment_declares (builtIn : env.graph.BuiltIn) {id : VariableId}
    (found : env.graph.node? child = some n) (kind : n.kind = .setVariable id) :
    Declares (translateAssignment env n id) (ScopedBlock env) := by
  unfold translateAssignment
  split
  · exact .reported _ _
  · rename_i v declared
    refine (env.inputOrDefault_declares builtIn _ _ _).bind fun value => .pure ?_
    rintro scope scope _ ⟨rfl, rfl, told⟩
    exact ⟨rfl, .assign found kind declared told .nil⟩

/-- The result of a call may be read behind the call from the local that is declared for it. -/
theorem translateCall_declares (builtIn : env.graph.BuiltIn) {call : CallDecl}
    (found : env.graph.node? child = some n) (kind : n.kind = .call call) :
    Declares (translateCall env n call) (ScopedBlock env) := by
  unfold translateCall
  have told : Declares (env.callExpr n call (env.inputExpr n.id)).run fun scope r made after =>
      made = [] ∧ after = scope ∧ ∀ e, r = .ok e → env.Denotes scope (.call n) e :=
    .of_evaluates (fun s => TranslationEnv.callExpr_evaluates
      (TranslationEnv.inputExpr_evaluates builtIn s n.id) kind) TranslationEnv.Denotes.mono
  refine told.bind fun result => ?_
  cases result with
  | error e => exact .reported e _
  | ok value =>
    dsimp only
    split
    · refine (bindOutput_declares _ _ _).bind fun name => .pure ?_
      rintro scope scope _ ⟨rfl, rfl⟩ scope _ ⟨rfl, rfl, told⟩
      exact ⟨rfl, .declare found kind (told value rfl) .nil⟩
    · refine .pure ?_
      rintro scope scope _ ⟨rfl, rfl, told⟩
      exact ⟨rfl, .effect found kind (told value rfl) .nil⟩

theorem translateWhile_declares (builtIn : env.graph.BuiltIn) (chains : DeclaresChains env chain)
    (found : env.graph.node? child = some n) (kind : n.kind = .repeated) :
    Declares (translateWhile env chain n) (ScopedBlock env) := by
  unfold translateWhile
  refine (env.inputOrDefault_declares builtIn _ _ _).bind fun condition => ?_
  refine (translateBranch_declares chains _ _).bind fun body => .pure ?_
  rintro scope scope _ ⟨rfl, inner, names, sound⟩ scope _ ⟨rfl, rfl, told⟩
  refine ⟨?_, .repeated found kind told sound .nil⟩
  simp [Stmt.localNames, Stmt.localNamesAll, names]

theorem eraseBound_declares (ref : OutputRef) :
    Declares (modify fun s => { s with bound := s.bound.erase ref } : Translate Unit)
      fun scope _ made after => made = [] ∧ after = scope.filter (·.1 ≠ ref) := by
  refine fun s => ⟨List.prefix_rfl, fun _ scope within => ?_⟩
  refine ⟨[], _, .of_same rfl rfl, fun entry bound => ?_, rfl, rfl⟩
  obtain ⟨member, other⟩ := OrderedMap.mem_entries_filter.mp bound
  exact List.mem_filter.mpr ⟨within member, by simpa using other⟩

/-- The item of a loop may be read in its body, and behind the loop only what could be read before
it. -/
theorem translateForEach_declares (builtIn : env.graph.BuiltIn) (chains : DeclaresChains env chain)
    (found : env.graph.node? child = some n) (kind : n.kind = .forEach) :
    Declares (translateForEach env chain n) (ScopedBlock env) := by
  have declares : Declares (translateForEach env chain n) fun scope stmts made after =>
      ScopedBlock env scope stmts made scope ∧ after ⊆ scope := by
    unfold translateForEach
    refine (env.inputOrDefault_declares builtIn _ _ _).bind fun collection => ?_
    refine (bindOutput_declares _ _ _).bind fun item => ?_
    refine (translateBranch_declares chains _ _).bind fun body => ?_
    refine (eraseBound_declares ⟨n.id, "Item"⟩).bind fun _ => .pure ?_
    rintro scope scope _ ⟨rfl, rfl⟩ scope _ ⟨rfl, inner, names, sound⟩ scope _ ⟨rfl, rfl⟩ scope _
      ⟨rfl, rfl, told⟩
    refine ⟨⟨?_, .forEach found kind told sound .nil⟩, ?_⟩
    · simp [Stmt.localNames, Stmt.localNamesAll, names]
    · intro entry member
      obtain ⟨inside, other⟩ := List.mem_filter.mp member
      rcases List.mem_cons.mp inside with rfl | old
      · simp at other
      · exact old
  exact declares.mono fun ⟨block, narrower⟩ => ⟨_, narrower, block⟩

theorem translateNode_declares (builtIn : env.graph.BuiltIn) (chains : DeclaresChains env chain)
    (found : env.graph.node? child = some n) :
    Declares (translateNode env chain n) (ScopedBlock env) := by
  unfold translateNode
  split
  · exact translateAssignment_declares builtIn found (by assumption)
  · exact translateCall_declares builtIn found (by assumption)
  · exact translateWhile_declares builtIn chains found (by assumption)
  · exact translateForEach_declares builtIn chains found (by assumption)
  · rename_i custom
    have plain := builtIn found
    simp [custom, NodeKind.isBuiltIn] at plain
  · exact .reported _ _

theorem translateChildren_declares (builtIn : env.graph.BuiltIn)
    (chains : DeclaresChains env chain) (stack : NodeId) (rest : List NodeId) :
    Declares (translateChildren env chain stack rest) fun scope r => ScopedBlock env scope r.1 := by
  induction rest with
  | nil => exact .pure fun scope => ⟨rfl, .nil⟩
  | cons child rest ih =>
    unfold translateChildren
    split
    · exact ih
    · rename_i n found
      refine (traceStatement_declares env child).bind fun hook => ?_
      split
      · rename_i kind
        refine (translateIf_declares builtIn chains found kind).bind ?_
        rintro ⟨stmt, join⟩
        refine .pure ?_
        intro scope _ _ block _ _ traced
        simpa using traced.append block
      · rename_i kind
        refine (translateSwitch_declares builtIn chains found kind).bind ?_
        rintro ⟨stmt, join⟩
        refine .pure ?_
        intro scope _ _ block _ _ traced
        simpa using traced.append block
      · rename_i kind
        refine (translateLeave_declares builtIn found kind).bind fun stmt => .pure ?_
        intro scope _ _ block _ _ traced
        simpa using traced.append block
      · refine (translateNode_declares builtIn chains found).bind fun stmts => ?_
        refine ih.bind ?_
        rintro ⟨others, next⟩
        refine .pure ?_
        intro scope _ _ later _ _ here _ _ traced
        simpa using (traced.append here).append later

theorem translateStack_declares (builtIn : env.graph.BuiltIn) (chains : DeclaresChains env chain)
    (stack : NodeId) :
    Declares (translateStack env chain stack) fun scope r => ScopedBlock env scope r.1 := by
  unfold translateStack
  split
  · exact .pure fun scope => ⟨rfl, .nil⟩
  split
  · exact translateChildren_declares builtIn chains stack _
  · exact .reported _ _

/-- The translation of stacks gives well scoped statements, however deep it goes. -/
theorem TranslationEnv.chainWithin_declares (builtIn : env.graph.BuiltIn) (depth : Nat)
    (path : List NodeId) : DeclaresChains env (env.chainWithin depth path) := by
  intro start stop
  induction depth generalizing path start stop with
  | zero =>
    unfold chainWithin
    split
    · exact .pure fun scope => ⟨rfl, .nil⟩
    split
    · exact .reported _ _
    · exact .pure fun scope => ⟨rfl, .nil⟩
  | succ depth ih =>
    unfold chainWithin
    split
    · exact .pure fun scope => ⟨rfl, .nil⟩
    split
    · exact .reported _ _
    refine (translateStack_declares builtIn (ih (start :: path)) start).bind ?_
    rintro ⟨stmts, next⟩
    cases next with
    | none =>
      refine .pure fun scope _ _ block => ?_
      simpa using block
    | some next =>
      refine (ih (start :: path) next stop).bind fun others => .pure ?_
      intro scope _ _ later _ _ block
      simpa using block.append later

end NodeScript
