import NodeScript.Proofs.Code.Pieces
import NodeScript.Proofs.Translation.Stacks
import NodeScript.Proofs.Translation.Tracing
import NodeScript.Proofs.Translation.WellScoped

/-!
Reports of traced runs. In front of the statements of each node of a stack stands one that reports a
number, and the record knows the number as that of the node. Numbers are given out while statements
are made, so what a number stands for once it stands for in every record from there on.
-/

namespace NodeScript

open NodeScript.Graph (placed wired numbered)

/-- A record comes from another one by numbers being given out for a graph. -/
def Registers (graph : String) (r r' : TraceRecord) : Prop :=
  ∃ nodes : List NodeId, r' = r.after (nodes.map (.register graph))

namespace Registers

variable {graph : String} {r r' r'' : TraceRecord}

theorem refl (graph : String) (r : TraceRecord) : Registers graph r r := ⟨[], rfl⟩

theorem trans (first : Registers graph r r') (next : Registers graph r' r'') :
    Registers graph r r'' := by
  obtain ⟨nodes, rfl⟩ := first
  obtain ⟨more, rfl⟩ := next
  exact ⟨nodes ++ more, by rw [List.map_append, TraceRecord.after_append]⟩

theorem register (graph : String) (r : TraceRecord) (node : NodeId) :
    Registers graph r (r.register graph node).2 := ⟨[node], rfl⟩

/-- What a number stands for it goes on standing for. -/
theorem nodeFor? (later : Registers graph r r') {index : Nat} {node : NodeId}
    (found : r.nodeFor? graph index = some node) : r'.nodeFor? graph index = some node := by
  obtain ⟨nodes, rfl⟩ := later
  have goes : .start graph ∉ nodes.map (TraceEvent.register graph) := by simp
  exact TraceRecord.nodeFor?_of_prefix (r.prefix_after goes) found

end Registers

/-- A part of the translation gives out numbers of a graph and does nothing else to the record, and
its result is as told by every record from there on. -/
def Numbers (graph : String) {α : Type} (m : Translate α) (P : TraceRecord → α → Prop) : Prop :=
  ∀ (s : TranslatorState) r, s.trace = some r → ∃ r', (m.run s).2.trace = some r' ∧
    Registers graph r r' ∧ ∀ later, Registers graph r' later → P later (m.run s).1

namespace Numbers

variable {graph : String} {α β : Type} {m : Translate α} {P R : TraceRecord → α → Prop}
  {Q : TraceRecord → β → Prop}

theorem still (kept : ∀ s : TranslatorState, (m.run s).2.trace = s.trace) :
    Numbers graph m fun _ _ => True :=
  fun s r held => ⟨r, (kept s).trans held, .refl graph r, fun _ _ => trivial⟩

theorem pure {a : α} (holds : ∀ r, P r a) : Numbers graph (pure a) P :=
  fun _ r held => ⟨r, held, .refl graph r, fun later _ => holds later⟩

theorem mono (numbers : Numbers graph m P) (weaker : ∀ r a, P r a → R r a) : Numbers graph m R := by
  intro s r held
  obtain ⟨r', there, grows, holds⟩ := numbers s r held
  exact ⟨r', there, grows, fun later behind => weaker later _ (holds later behind)⟩

/-- What is told of the first result is still told when the second is there. -/
theorem bind {f : α → Translate β} (first : Numbers graph m P)
    (next : ∀ a, Numbers graph (f a) fun r b => P r a → Q r b) : Numbers graph (m >>= f) Q := by
  intro s r held
  obtain ⟨r', there, grows, holds⟩ := first s r held
  obtain ⟨r'', there', grows', holds'⟩ := next (m.run s).1 (m.run s).2 r' there
  refine ⟨r'', there', grows.trans grows', fun later behind => ?_⟩
  exact holds' later behind (holds later (grows'.trans behind))

/-- The result is, moreover, one that the part tells somewhere. -/
theorem told (numbers : Numbers graph m P) :
    Numbers graph m fun r a => P r a ∧ ∃ s, a = (m.run s).1 := by
  intro s r held
  obtain ⟨r', there, grows, holds⟩ := numbers s r held
  exact ⟨r', there, grows, fun later behind => ⟨holds later behind, s, rfl⟩⟩

theorem inBlock {body : Translate (List Stmt)} {P : TraceRecord → List Stmt → Prop}
    (numbers : Numbers graph body P) : Numbers graph (inBlock body) P :=
  fun s r held => numbers s r held

theorem traceStatement (env : TranslationEnv) (node : NodeId) :
    Numbers env.graph.name (traceStatement env node) fun r hook =>
      ∃ index, hook = [.effect (some node) (traceCall env.graph.name index)] ∧
        r.nodeFor? env.graph.name index = some node := by
  intro s r held
  obtain ⟨context, trace, bound, closed, names⟩ := s
  obtain rfl : trace = some r := held
  refine ⟨(r.register env.graph.name node).2, rfl, .register _ r node, fun later behind => ?_⟩
  exact ⟨_, rfl, behind.nodeFor? (r.nodeFor?_register env.graph.name node)⟩

/-- Every part of the translation of a function gives out numbers at most. -/
theorem pervades (env : TranslationEnv) :
    Pervades env fun _ m => Numbers env.graph.name m fun _ _ => True where
  pure _ := .pure fun _ => trivial
  bind first next := first.bind fun a => (next a).mono fun _ _ _ _ => trivial
  reading each s := each s.bound s.closed s
  report _ := still fun _ => rfl
  inBlock body := body.inBlock
  bindOutput _ _ _ := still fun _ => rfl
  release _ := still fun _ => rfl
  takeName _ := still fun _ => rfl
  reset := still fun _ => rfl
  hook node := (Numbers.traceStatement env node).mono fun _ _ _ => trivial

end Numbers

/-- The extensions whose nodes stand in the graph give out numbers of it at most. -/
def TranslationEnv.NumbersOnly (env : TranslationEnv) : Prop :=
  env.Keeps fun _ m => Numbers env.graph.name m fun _ _ => True

/-! ### Statements with reports in front of them -/

/-- The outputs whose stacks become blocks inside the statement of a node, in the order of the
blocks. -/
def NodeKind.blocks (kind : NodeKind) : List String :=
  if kind.isLoop then ["Body"] else kind.exitNames

/-- Where execution goes on behind the statements of a node. -/
def Graph.behind (g : Graph) (n : Node) (stack : NodeId) (rest : List NodeId) : Passage :=
  if n.kind.isBranching then .way (g.joinBehind? n)
  else if n.kind.isLeave then .way none
  else .nodes stack rest

namespace TranslationEnv

/-- The statements of a node itself: one at most, with a block for each of the outputs that become
blocks, or those of an extension. -/
inductive Own (env : TranslationEnv) (n : Node) : List Stmt → Prop
  | nothing : n.kind.isBuiltIn = true → Own env n []
  | single {stmt} : n.kind.isBuiltIn = true → stmt.origin = some n.id →
      stmt.bodies.length = n.kind.blocks.length → Own env n [stmt]
  | custom {typeId config} (s : TranslatorState) : n.kind = .custom typeId config →
      Own env n ((translateCustom env n typeId).run s).1

/-- The statements of a passage, inside blocks too: those of each node stand behind the report of a
number, which the record knows as that of the node. -/
inductive Hooked (env : TranslationEnv) (r : TraceRecord) : Passage → List Stmt → Prop
  | stops {target} : Hooked env r (.way target) []
  | stack {s stmts} : Hooked env r (.nodes s (env.graph.children s)) stmts →
      Hooked env r (.way (some s)) stmts
  | out {s stmts} : Hooked env r (.way (env.graph.execTarget? s "Out")) stmts →
      Hooked env r (.nodes s []) stmts
  | absent {s c rest stmts} : env.graph.node? c = none → Hooked env r (.nodes s rest) stmts →
      Hooked env r (.nodes s (c :: rest)) stmts
  | node {s c rest n index own stmts} : env.graph.node? c = some n →
      r.nodeFor? env.graph.name index = some c → env.Own n own →
      (∀ stmt ∈ own, ∀ block ∈ n.kind.blocks.zip stmt.bodies,
        Hooked env r (.way (env.graph.execTarget? n.id block.1)) block.2) →
      Hooked env r (env.graph.behind n s rest) stmts →
      Hooked env r (.nodes s (c :: rest))
        (.effect (some c) (traceCall env.graph.name index) :: (own ++ stmts))

/-- The statements of a node itself, and those inside blocks have reports in front of them. -/
def HookedNode (env : TranslationEnv) (r : TraceRecord) (n : Node) (own : List Stmt) : Prop :=
  env.Own n own ∧ ∀ stmt ∈ own, ∀ block ∈ n.kind.blocks.zip stmt.bodies,
    env.Hooked r (.way (env.graph.execTarget? n.id block.1)) block.2

/-- Statements, and where execution goes on behind them: with those from there on they are the
statements of a passage. -/
def HookedUpTo (env : TranslationEnv) (r : TraceRecord) (passage : Passage) :
    List Stmt × Option NodeId → Prop
  | (stmts, next) => ∀ others, env.Hooked r (.way next) others →
    env.Hooked r passage (stmts ++ others)

/-- The translation of the stacks from one on puts reports in front of the statements. -/
def HooksChains (env : TranslationEnv) (chain : BranchTranslator) : Prop :=
  ∀ start stop, Numbers env.graph.name (chain start stop) fun r stmts =>
    env.Hooked r (.way (some start)) stmts

end TranslationEnv

section Stacks

variable {env : TranslationEnv} {chain : BranchTranslator} {n : Node} {r : TraceRecord} {id : NodeId}

namespace TranslationEnv.HookedNode

theorem nothing (builtIn : n.kind.isBuiltIn = true) : env.HookedNode r n [] :=
  ⟨.nothing builtIn, nofun⟩

theorem single {stmt : Stmt} (builtIn : n.kind.isBuiltIn = true) (origin : stmt.origin = some n.id)
    (blocks : stmt.bodies.length = n.kind.blocks.length)
    (inside : ∀ block ∈ n.kind.blocks.zip stmt.bodies,
      env.Hooked r (.way (env.graph.execTarget? n.id block.1)) block.2) :
    env.HookedNode r n [stmt] :=
  ⟨.single builtIn origin blocks, List.forall_mem_singleton.mpr inside⟩

theorem flat {stmt : Stmt} (builtIn : n.kind.isBuiltIn = true) (blocks : n.kind.blocks = [])
    (origin : stmt.origin = some n.id) (flat : stmt.bodies = []) : env.HookedNode r n [stmt] := by
  refine single builtIn origin (by simp [blocks, flat]) ?_
  rw [blocks]
  nofun

/-- The statement of a loop. -/
theorem loop {stmt : Stmt} {body : List Stmt} (repeats : n.kind.isLoop = true)
    (origin : stmt.origin = some n.id) (bodies : stmt.bodies = [body])
    (inside : env.Hooked r (.way (env.graph.execTarget? n.id "Body")) body) :
    env.HookedNode r n [stmt] := by
  have builtIn : n.kind.isBuiltIn = true := by
    cases kind : n.kind <;> simp_all [NodeKind.isLoop, NodeKind.isBuiltIn]
  have blocks : n.kind.blocks = ["Body"] := if_pos repeats
  refine single builtIn origin (by rw [blocks, bodies]; rfl) ?_
  rw [blocks, bodies]
  exact List.forall_mem_singleton.mpr inside

/-- The report of a node and its statements stand in front of what is behind them. -/
theorem hooked {stack child : NodeId} {rest : List NodeId} {index : Nat} {own stmts : List Stmt}
    (node : env.HookedNode r n own) (found : env.graph.node? child = some n)
    (number : r.nodeFor? env.graph.name index = some child)
    (behind : env.Hooked r (env.graph.behind n stack rest) stmts) :
    env.Hooked r (.nodes stack (child :: rest))
      ([.effect (some child) (traceCall env.graph.name index)] ++ own ++ stmts) :=
  .node found number node.1 node.2 behind

end TranslationEnv.HookedNode

variable (extensions : env.NumbersOnly) (chains : env.HooksChains chain)

include chains in
theorem translateBranch_hooks (target join : Option NodeId) :
    Numbers env.graph.name (translateBranch chain target join) fun r stmts =>
      env.Hooked r (.way target) stmts := by
  cases target with
  | none => exact .pure fun _ => .stops
  | some start => exact (chains start join).inBlock

include chains in
theorem translateCases_hooks (join : Option NodeId) (cases : List Int64) :
    Numbers env.graph.name (translateCases env chain n join cases) fun r made =>
      made.map SwitchCase.label = cases ∧ ∀ c ∈ made,
        env.Hooked r (.way (env.graph.execTarget? n.id (caseOutput c.label))) c.body := by
  induction cases with
  | nil => exact .pure fun _ => ⟨rfl, nofun⟩
  | cons label rest ih =>
    refine (translateBranch_hooks chains _ _).bind fun body => ih.bind fun others => .pure ?_
    rintro r ⟨labels, inside⟩ here
    exact ⟨congrArg (label :: ·) labels, List.forall_mem_cons.mpr ⟨here, inside⟩⟩

include extensions

theorem inputOrDefault_numbers (node : NodeId) (name type : String) :
    Numbers env.graph.name (env.inputOrDefault node name type) fun _ _ => True :=
  (Numbers.pervades env).inputOrDefault extensions node name type

include chains in
theorem translateIf_hooks (kind : n.kind = .branch) :
    Numbers env.graph.name (translateIf env chain n) fun r made =>
      env.HookedNode r n [made.1] ∧ made.2 = env.graph.joinBehind? n := by
  rw [translateIf_eq env chain kind]
  refine (inputOrDefault_numbers extensions _ _ _).bind fun condition => ?_
  refine (translateBranch_hooks chains _ _).bind fun thenBody => ?_
  refine (translateBranch_hooks chains _ _).bind fun elseBody => .pure ?_
  intro r elseHooked thenHooked _
  have blocks : n.kind.blocks = ["Then", "Else"] := by rw [kind]; rfl
  refine ⟨.single (by rw [kind]; rfl) rfl (by rw [blocks]; rfl) ?_, rfl⟩
  rw [blocks]
  exact List.forall_mem_cons.mpr ⟨thenHooked, List.forall_mem_singleton.mpr elseHooked⟩

include chains in
theorem translateSwitch_hooks {cases : List Int64} (kind : n.kind = .select cases) :
    Numbers env.graph.name (translateSwitch env chain n cases) fun r made =>
      env.HookedNode r n [made.1] ∧ made.2 = env.graph.joinBehind? n := by
  unfold translateSwitch
  refine (inputOrDefault_numbers extensions _ _ _).bind fun value => ?_
  refine (translateCases_hooks chains _ cases).bind fun made => ?_
  refine (translateBranch_hooks chains _ _).bind fun fallback => .pure ?_
  rintro r otherwise ⟨labels, inside⟩ _
  have blocks : n.kind.blocks = (made.map SwitchCase.label).map caseOutput ++ ["Default"] := by
    rw [labels, kind]
    rfl
  have bodies : (Stmt.select (some n.id) value made fallback).bodies =
      made.map SwitchCase.body ++ [fallback] := rfl
  refine ⟨.single (by rw [kind]; rfl) rfl (by rw [blocks, bodies]; simp) ?_,
    joinBehind?_select kind⟩
  rw [blocks, bodies, List.map_map, List.zip_append (by simp), List.zip_map', List.zip_cons_cons]
  rw [List.forall_mem_append, List.forall_mem_map]
  exact ⟨inside, List.forall_mem_singleton.mpr otherwise⟩

theorem translateLeave_hooks (kind : n.kind = .leave) :
    Numbers env.graph.name (translateLeave env n) fun r stmt => env.HookedNode r n [stmt] := by
  have flat (value : Option Expr) (r : TraceRecord) :
      env.HookedNode r n [.leave (some n.id) value] :=
    .flat (by rw [kind]; rfl) (by rw [kind]; rfl) rfl rfl
  unfold translateLeave
  split
  · refine (inputOrDefault_numbers extensions _ _ _).bind fun value => .pure ?_
    exact fun r _ => flat _ r
  · exact .pure fun r => flat _ r

theorem translateAssignment_hooks {variableId : VariableId} (kind : n.kind = .setVariable variableId) :
    Numbers env.graph.name (translateAssignment env n variableId) fun r own =>
      env.HookedNode r n own := by
  have rules := Numbers.pervades env
  have builtIn : n.kind.isBuiltIn = true := by rw [kind]; rfl
  unfold translateAssignment
  split
  · exact (rules.report _).bind fun _ => .pure fun _ _ => .nothing builtIn
  · refine (inputOrDefault_numbers extensions _ _ _).bind fun value => .pure fun r _ => ?_
    exact .flat builtIn (by rw [kind]; rfl) rfl rfl

theorem translateCall_hooks {call : CallDecl} (kind : n.kind = .call call) :
    Numbers env.graph.name (translateCall env n call) fun r own => env.HookedNode r n own := by
  have rules := Numbers.pervades env
  have builtIn : n.kind.isBuiltIn = true := by rw [kind]; rfl
  have blocks : n.kind.blocks = [] := by rw [kind]; rfl
  have value := rules.callExpr n call (rules.inputExpr extensions n.id)
  refine value.bind fun result => ?_
  cases result with
  | error e => exact (rules.report e).bind fun _ => .pure fun _ _ _ => .nothing builtIn
  | ok value =>
    dsimp only
    split
    · refine (rules.bindOutput _ _ _).bind fun name => .pure fun r _ _ => ?_
      exact .flat builtIn blocks rfl rfl
    · exact .pure fun r _ => .flat builtIn blocks rfl rfl

include chains in
theorem translateWhile_hooks (kind : n.kind = .repeated) :
    Numbers env.graph.name (translateWhile env chain n) fun r own => env.HookedNode r n own := by
  refine (inputOrDefault_numbers extensions _ _ _).bind fun condition => ?_
  refine (translateBranch_hooks chains _ _).bind fun body => .pure fun r inside _ => ?_
  exact .loop (by rw [kind]; rfl) rfl rfl inside

include chains in
theorem translateForEach_hooks (kind : n.kind = .forEach) :
    Numbers env.graph.name (translateForEach env chain n) fun r own => env.HookedNode r n own := by
  have rules := Numbers.pervades env
  refine (inputOrDefault_numbers extensions _ _ _).bind fun collection => ?_
  refine (rules.bindOutput _ _ _).bind fun item => ?_
  refine (translateBranch_hooks chains _ _).bind fun body => ?_
  refine (rules.release _).bind fun _ => .pure fun r _ inside _ _ => ?_
  exact .loop (by rw [kind]; rfl) rfl rfl inside

theorem translateCustom_hooks (found : env.graph.node? id = some n) {typeId : String}
    {config : OrderedMap String String} (kind : n.kind = .custom typeId config) :
    Numbers env.graph.name (translateCustom env n typeId) fun r own => env.HookedNode r n own := by
  have numbers := (Numbers.pervades env).translateCustom extensions found kind
  refine numbers.told.mono ?_
  rintro r _ ⟨-, s, rfl⟩
  have blocks : n.kind.blocks = [] := by rw [kind]; rfl
  refine ⟨.custom s kind, fun stmt _ => ?_⟩
  rw [blocks]
  nofun

include chains

theorem translateNode_hooks (found : env.graph.node? id = some n) :
    Numbers env.graph.name (translateNode env chain n) fun r own => env.HookedNode r n own := by
  unfold translateNode
  split
  · rename_i kind
    exact translateAssignment_hooks extensions kind
  · rename_i kind
    exact translateCall_hooks extensions kind
  · rename_i kind
    exact translateWhile_hooks extensions chains kind
  · rename_i kind
    exact translateForEach_hooks extensions chains kind
  · rename_i kind
    exact translateCustom_hooks extensions found kind
  · rename_i notCustom
    have builtIn : n.kind.isBuiltIn = true := by
      cases kind : n.kind <;> simp_all [NodeKind.isBuiltIn]
    exact ((Numbers.pervades env).report _).bind fun _ => .pure fun _ _ => .nothing builtIn

theorem translateChildren_hooks (stack : NodeId) (children : List NodeId) :
    Numbers env.graph.name (translateChildren env chain stack children) fun r made =>
      env.HookedUpTo r (.nodes stack children) made := by
  induction children with
  | nil => exact .pure fun r others hooked => .out hooked
  | cons child rest ih =>
    unfold translateChildren
    split
    · rename_i gone
      exact ih.mono fun r made hooked others onward => .absent gone (hooked others onward)
    rename_i n found
    refine (Numbers.traceStatement env child).bind fun hook => ?_
    -- a choice and a leave end the stack, so what is behind them is not the rest of it
    have ends : ∀ {m : Translate (Stmt × Option NodeId)}, Numbers env.graph.name m (fun r made =>
          env.HookedNode r n [made.1] ∧ env.graph.behind n stack rest = .way made.2) →
        Numbers env.graph.name (m >>= fun made => pure (hook ++ [made.1], made.2)) fun r made =>
          (∃ index, hook = [.effect (some child) (traceCall env.graph.name index)] ∧
            r.nodeFor? env.graph.name index = some child) →
          env.HookedUpTo r (.nodes stack (child :: rest)) made := by
      refine fun numbers => numbers.bind fun made => .pure ?_
      rintro r ⟨node, behind⟩ ⟨index, rfl, number⟩ others onward
      exact node.hooked found number (behind ▸ onward)
    split
    · rename_i kind
      refine ends ((translateIf_hooks extensions chains kind).mono ?_)
      rintro r made ⟨node, joined⟩
      exact ⟨node, by rw [joined, Graph.behind, kind]; rfl⟩
    · rename_i kind
      refine ends ((translateSwitch_hooks extensions chains kind).mono ?_)
      rintro r made ⟨node, joined⟩
      exact ⟨node, by rw [joined, Graph.behind, kind]; rfl⟩
    · rename_i kind
      refine (translateLeave_hooks extensions kind).bind fun stmt => .pure ?_
      rintro r node ⟨index, rfl, number⟩ others onward
      have behind : env.graph.behind n stack rest = .way none := by rw [Graph.behind, kind]; rfl
      exact node.hooked found number (behind ▸ onward)
    · rename_i notIf notSwitch notLeave
      refine (translateNode_hooks extensions chains found).bind fun own => ?_
      refine ih.bind fun made => .pure ?_
      rintro r hooked node ⟨index, rfl, number⟩ others onward
      have behind : env.graph.behind n stack rest = .nodes stack rest := by
        cases kind : n.kind <;> simp_all [Graph.behind, NodeKind.isBranching, NodeKind.isLeave]
      rw [List.append_assoc]
      exact node.hooked found number (behind ▸ hooked others onward)

theorem translateStack_hooks (stack : NodeId) :
    Numbers env.graph.name (translateStack env chain stack) fun r made =>
      env.HookedUpTo r (.way (some stack)) made := by
  have nowhere : ∀ r, env.HookedUpTo r (.way (some stack)) ([], none) := by
    intro r others onward
    cases onward
    exact .stops
  unfold translateStack
  split
  · exact .pure nowhere
  rename_i n found
  split
  · have children : n.children = env.graph.children stack := by simp [Graph.children, found]
    rw [children]
    refine (translateChildren_hooks extensions chains stack _).mono ?_
    exact fun r made hooked others onward => .stack (hooked others onward)
  · exact ((Numbers.pervades env).report _).bind fun _ => .pure fun r _ => nowhere r

end Stacks

/-! ### Functions -/

section Functions

variable {env : TranslationEnv}

theorem TranslationEnv.chainWithin_hooks (extensions : env.NumbersOnly) (depth : Nat)
    (path : List NodeId) : env.HooksChains (env.chainWithin depth path) := by
  intro start stop
  have rules := Numbers.pervades env
  induction depth generalizing path start stop with
  | zero =>
    unfold chainWithin
    split
    · exact .pure fun _ => .stops
    split
    · exact (rules.report _).bind fun _ => .pure fun _ _ => .stops
    · exact .pure fun _ => .stops
  | succ depth ih =>
    unfold chainWithin
    split
    · exact .pure fun _ => .stops
    split
    · exact (rules.report _).bind fun _ => .pure fun _ _ => .stops
    have chains : env.HooksChains (env.chainWithin depth (start :: path)) := ih (start :: path)
    refine (translateStack_hooks extensions chains start).bind fun made => ?_
    obtain ⟨stmts, next⟩ := made
    cases next with
    | none =>
      refine .pure fun r hooked => ?_
      have alone := hooked [] .stops
      rwa [List.append_nil] at alone
    | some next =>
      exact (chains next stop).bind fun others => .pure fun r behind hooked => hooked others behind

/-- The method of a function: the declarations of its locals, and then the statements of its stacks
with reports in front of them. -/
def TranslationEnv.HookedPart (env : TranslationEnv) (r : TraceRecord) (p : FunctionPart) : Prop :=
  ∃ locals stmts, p.method.body = locals ++ stmts ∧
    (∀ stmt ∈ locals, ∃ type name value,
      stmt = .declare (some p.function) (some type) name (some value)) ∧
    env.Hooked r (.way (some p.function)) stmts

theorem functionMethod_hooks (extensions : env.NumbersOnly) (function : NodeId)
    (decl : FunctionDecl) :
    Numbers env.graph.name (functionMethod env function decl) fun r method =>
      env.HookedPart r ⟨function, decl, method⟩ := by
  have rules := Numbers.pervades env
  refine rules.reset.bind fun _ => ?_
  refine (rules.translateVariables function _).told.bind fun declared => ?_
  refine (env.chainWithin_hooks extensions _ _ function none).bind fun stmts => ?_
  refine (rules.translateReturnType function decl).bind fun returnType => .pure ?_
  rintro r _ hooked ⟨-, s, rfl⟩ _
  refine ⟨_, stmts, rfl, fun stmt member => ?_, hooked⟩
  obtain ⟨type, name, value, same, -⟩ :=
    (translateVariables_introduces env function env.graph.vars.values s).locals stmt member
  exact ⟨type, name, value, same⟩

theorem fileMethod_trace (p : FunctionPart) (s : TranslatorState) :
    ((fileMethod p.function p.decl p.method).run s).2.trace = s.trace := by
  cases found : s.context.mergeMethod p.method with
  | error e => rw [fileMethod_error found]
  | ok merged => rw [fileMethod_ok found]

/-- The methods of functions that are translated one after the other, as told by every record from
there on. -/
theorem partsFrom_hooks (extensions : env.NumbersOnly) (functions : List (NodeId × FunctionDecl))
    (s : TranslatorState) {r : TraceRecord} (held : s.trace = some r) :
    ∃ r', ((functions.forM fun (function, decl) =>
        translateFunction env function decl).run s).2.trace = some r' ∧
      Registers env.graph.name r r' ∧ ∀ later, Registers env.graph.name r' later →
        ∀ p ∈ env.partsFrom functions s, env.HookedPart later p := by
  induction functions generalizing s r with
  | nil => exact ⟨r, held, .refl _ r, nofun⟩
  | cons f rest ih =>
    obtain ⟨function, decl⟩ := f
    let p : FunctionPart := ⟨function, decl, ((functionMethod env function decl).run s).1⟩
    let made := ((functionMethod env function decl).run s).2
    let filed := ((fileMethod p.function p.decl p.method).run made).2
    obtain ⟨r', there, grows, hooked⟩ := functionMethod_hooks extensions function decl s r held
    have kept : filed.trace = some r' := (fileMethod_trace p made).trans there
    obtain ⟨r'', last, grows', others⟩ := ih filed kept
    refine ⟨r'', last, grows.trans grows', fun later behind => ?_⟩
    exact List.forall_mem_cons.mpr ⟨hooked later (grows'.trans behind), others later behind⟩

/-- The methods of a traced translation, whose record knows the nodes of the numbers that are
reported. The record comes from the one before by the graph being begun and numbers being given out,
and no node has two numbers in it. -/
structure TranslationEnv.Traced (env : TranslationEnv) (before after : TraceRecord) : Prop where
  trace : (env.translate (some before)).trace = some after
  grows : Registers env.graph.name (before.beginGraph env.graph.name) after
  injective : ∀ i j node, after.nodeFor? env.graph.name i = some node →
    after.nodeFor? env.graph.name j = some node → i = j
  parts : ∀ p ∈ env.parts (some before), env.HookedPart after p
  methods : env.ExtensionsFileNothing → ∀ m ∈ (env.translate (some before)).unit.classDecl.methods,
    m.MadeOf (env.parts (some before))

theorem TranslationEnv.translate_traced (extensions : env.NumbersOnly) (before : TraceRecord) :
    ∃ after, env.Traced before after := by
  have rules := Numbers.pervades env
  have fields : Numbers env.graph.name (translateFields env) fun _ _ => True := by
    refine rules.forM (fun v => ?_) _
    unfold translateField
    split <;> exact .still fun _ => rfl
  obtain ⟨r, opened, first, -⟩ := fields (env.begun (some before)) _ rfl
  obtain ⟨after, last, next, hooked⟩ :=
    partsFrom_hooks extensions env.graph.functions (env.opened (some before)) opened
  have grows := first.trans next
  have nodup : (after.nodesOf env.graph.name).Nodup := by
    obtain ⟨nodes, rfl⟩ := grows
    refine TraceRecord.nodup_after _ ?_ _
    simp [TraceRecord.nodesOf_beginGraph]
  refine ⟨after, last, grows, fun i j node => TraceRecord.eq_of_nodeFor? nodup, ?_, ?_⟩
  · exact hooked after (.refl _ after)
  · exact fun fileNothing m emitted => translate_madeOf fileNothing emitted

/-- Numbers are resolved to nodes, whatever is done to a record; and the numbers that a traced
translation reports in front of the statements of nodes are those of these nodes afterwards. -/
theorem TranslationEnv.trace_resolves (env : TranslationEnv) (extensions : env.NumbersOnly)
    (before : TraceRecord) :
    (∀ events graph, TraceRecord.Resolves events graph) ∧ ∃ after, env.Traced before after :=
  ⟨TraceRecord.resolves, env.translate_traced extensions before⟩

end Functions

/-- Two branches that do not meet again, the second of which leads on to the stack of the first. -/
def fork : Graph :=
  { Graph.empty "Fork" with
    nodes := ⟨
      [placed 10 (.function (.onEvent .update)) none [⟨numbered 20⟩] [.execOutput "Out"],
        placed 20 .branch (some ⟨numbered 10⟩) []
          [.dataInput "Condition" .bool, .execOutput "Then", .execOutput "Else"],
        placed 30 .stack none [⟨numbered 40⟩] [.execInput "In", .execOutput "Out"],
        placed 40 (.custom "beep" ∅) (some ⟨numbered 30⟩) [] [],
        placed 50 .stack none [⟨numbered 60⟩] [.execInput "In", .execOutput "Out"],
        placed 60 .branch (some ⟨numbered 50⟩) []
          [.dataInput "Condition" .bool, .execOutput "Then", .execOutput "Else"]], by decide⟩
    edges := ⟨[wired 71 20 22 30 31, wired 72 20 23 50 51, wired 73 60 62 30 31], by decide⟩ }

/-- An extension whose nodes call a function. -/
def beeper : NodeTranslator :=
  { NodeTranslator.refusing "beep" with
    statements := fun scope => pure [.effect (some scope.node.id) (.call "Beep" [] [])] }

def forkEnv : TranslationEnv :=
  ⟨fork, TypeDatabase.empty.toOracle, .standard, .ofList [("beep", beeper)]⟩

/-- The stack of the first branch is emitted twice, and its node reports the same number there. -/
theorem TranslationEnv.trace_resolves_fork :
    let beep : List Stmt := [.effect (some ⟨numbered 40⟩) (traceCall "Fork" 1),
      .effect (some ⟨numbered 40⟩) (.call "Beep" [] [])]
    forkEnv.NumbersOnly ∧ (∀ events graph, TraceRecord.Resolves events graph) ∧
    ∃ after, forkEnv.Traced .empty after ∧
      after.nodesOf "Fork" = [⟨numbered 20⟩, ⟨numbered 40⟩, ⟨numbered 60⟩] ∧
      (forkEnv.translate (some .empty)).unit.classDecl.methods.map (·.body) =
        [[.effect (some ⟨numbered 20⟩) (traceCall "Fork" 0),
          .branch (some ⟨numbered 20⟩) (.literal "true") beep
            [.effect (some ⟨numbered 60⟩) (traceCall "Fork" 2),
              .branch (some ⟨numbered 60⟩) (.literal "true") beep []]]] := by
  have only : forkEnv.NumbersOnly := by
    intro id n typeId config t found kind present
    have same : t = beeper := List.mem_singleton.mp (OrderedMap.mem_values_of_get? present)
    subst same
    have rules := Numbers.pervades forkEnv
    exact ⟨fun scope reads => rules.evalPure _, fun scope output reads => rules.throw _⟩
  obtain ⟨resolves, after, traced⟩ := trace_resolves forkEnv only .empty
  have numbers : (forkEnv.translate (some .empty)).trace.map (·.nodesOf "Fork") =
      some [⟨numbered 20⟩, ⟨numbered 40⟩, ⟨numbered 60⟩] := by cbv
  rw [traced.trace] at numbers
  exact ⟨only, resolves, after, traced, Option.some.inj numbers, by cbv⟩

end NodeScript
