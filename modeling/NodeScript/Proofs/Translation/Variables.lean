import NodeScript.Proofs.Translation.Fields
import NodeScript.Proofs.Translation.Redeclaration

/-!
Variables in what is emitted. A variable that belongs to no function is a field of the class, and
one that belongs to a function is a parameter of its method or is declared before its statements.
Where a variable is used does not matter for that, and nothing keeps other functions from using it.
-/

namespace NodeScript

open NodeScript.Graph (placed wired numbered)

namespace TranslationEnv

/-- An expression for a site holds an identifier that was emitted for reading a variable. -/
inductive Reads (env : TranslationEnv) (v : VariableDecl) : Site → Expr → Prop
  | stored {ref n id} : env.graph.node? ref.node = some n → n.kind = .getVariable id →
      env.graph.variableDecl? id = some v → Reads env v (.output ref) (.ident (sanitize v.name))
  | connected {node input source port e} :
      env.graph.inputSource? node input = some (source, port) →
      Reads env v (.output ⟨source.id, port.name⟩) e → Reads env v (.input node input) e
  | left {ref n op lhs rhs} : env.graph.node? ref.node = some n → n.kind = .binary op →
      Reads env v (.input n.id "A") lhs → Reads env v (.output ref) (.binary op.token lhs rhs)
  | right {ref n op lhs rhs} : env.graph.node? ref.node = some n → n.kind = .binary op →
      Reads env v (.input n.id "B") rhs → Reads env v (.output ref) (.binary op.token lhs rhs)
  | operand {ref n op operand} : env.graph.node? ref.node = some n → n.kind = .unary op →
      Reads env v (.input n.id "Value") operand →
      Reads env v (.output ref) (.unary op.token operand)
  | called {ref n e} : env.graph.node? ref.node = some n → n.isStacked = false →
      Reads env v (.call n) e → Reads env v (.output ref) e
  | target {n decl target name types args} : n.kind = .call decl →
      Reads env v (.input n.id "Instance") target →
      Reads env v (.call n) (.callOn target name types args)
  | argument {n decl m target types args pair} : n.kind = .call decl →
      env.oracle.method? decl.method = some m → pair ∈ (m.parameters.map (·.name)).zip args →
      Reads env v (.input n.id pair.1) pair.2 →
      Reads env v (.call n) (.callOn target m.name types args)

/-- Among statements stands an identifier that was emitted for reading or for assigning a
variable. -/
inductive Uses (env : TranslationEnv) (block : List Stmt) (v : VariableDecl) : Prop
  | assigned {child n id value} : env.graph.node? child = some n → n.kind = .setVariable id →
      env.graph.variableDecl? id = some v →
      StandsIn (.assign (some n.id) (.ident (sanitize v.name)) value) block → Uses env block v
  | read {stmt site e} : StandsIn stmt block → env.ExpressionFor stmt site e → env.Reads v site e →
      Uses env block v

variable {env : TranslationEnv} {v : VariableDecl} {site : Site} {e : Expr} {block : List Stmt}

theorem Reads.exists_id (reads : env.Reads v site e) :
    ∃ id, env.graph.variableDecl? id = some v := by
  induction reads with
  | stored _ _ declared => exact ⟨_, declared⟩
  | connected _ _ ih | left _ _ _ ih | right _ _ _ ih | operand _ _ _ ih | called _ _ _ ih
  | target _ _ ih | argument _ _ _ _ ih => exact ih

/-- Only variables of the graph are used. -/
theorem Uses.mem (uses : env.Uses block v) : v ∈ env.graph.vars.values := by
  suffices declared : ∃ id, env.graph.variableDecl? id = some v from
    declared.elim fun _ declared => OrderedMap.mem_values_of_get? declared
  cases uses with
  | assigned _ _ declared => exact ⟨_, declared⟩
  | read _ _ reads => exact reads.exists_id

end TranslationEnv

/-! ### Parameters and locals -/

/-- What the variables of a function become when no errors are added: its parameters are parameters,
and its locals are declared, with nothing else among them. -/
structure Allots (function : NodeId) (vars : List VariableDecl)
    (made : List ParameterDecl × List Stmt) : Prop where
  locals : ∀ stmt ∈ made.2, ∃ v ∈ vars, v.scope = .local function ∧ ∃ type value,
    stmt = .declare (some function) (some type) (sanitize v.name) (some value)
  parameter : ∀ v ∈ vars, v.scope = .parameter function →
    sanitize v.name ∈ made.1.map (·.name)
  «local» : ∀ v ∈ vars, v.scope = .local function → sanitize v.name ∈ Stmt.blockNames made.2

theorem translateVariables_allots (env : TranslationEnv) (function : NodeId)
    (vars : List VariableDecl) (s : TranslatorState)
    (clean : ((translateVariables env function vars).run s).2.context.errors = s.context.errors) :
    Allots function vars ((translateVariables env function vars).run s).1 := by
  induction vars generalizing s with
  | nil => exact ⟨nofun, nofun, nofun⟩
  | cons v rest ih =>
    have later (stmt : Stmt) : (∃ v' ∈ rest, v'.scope = .local function ∧ ∃ type value,
          stmt = .declare (some function) (some type) (sanitize v'.name) (some value)) →
        ∃ v' ∈ v :: rest, v'.scope = .local function ∧ ∃ type value,
          stmt = .declare (some function) (some type) (sanitize v'.name) (some value) := by
      rintro ⟨v', member, made⟩
      exact ⟨v', .tail _ member, made⟩
    unfold translateVariables at clean ⊢
    split
    · rename_i own
      rw [if_pos own] at clean
      split
      · rename_i unknown
        rw [unknown] at clean
        let reported := s.context.report (nodeError function v.unknownType)
        have kept := (translateVariables_introduces env function rest
          { s with context := reported }).errors
        have clean : ((translateVariables env function rest).run
            { s with context := reported }).2.context.errors = s.context.errors := clean
        have longer := kept.length_le
        rw [clean] at longer
        simp [reported, TranslationContext.report] at longer
      · rename_i t known
        rw [known] at clean
        have made := ih { s with names := sanitize v.name :: s.names }
        cases scope : v.scope with
        | field => simp [scope, VariableScope.function?] at own
        | parameter f =>
          obtain rfl : f = function := by simpa [scope, VariableScope.function?] using own
          rw [scope] at clean
          obtain ⟨locals, parameter, «local»⟩ := made clean
          refine ⟨fun stmt inside => later stmt (locals stmt inside), ?_, ?_⟩
          · refine List.forall_mem_cons.mpr ⟨fun _ => .head _, fun v' member scope' => ?_⟩
            exact .tail _ (parameter v' member scope')
          · refine List.forall_mem_cons.mpr ⟨fun scope' => ?_, «local»⟩
            exact absurd (scope.symm.trans scope') (by simp)
        | «local» f =>
          obtain rfl : f = function := by simpa [scope, VariableScope.function?] using own
          rw [scope] at clean
          obtain ⟨locals, parameter, «local»⟩ := made clean
          refine ⟨List.forall_mem_cons.mpr ⟨?_, fun stmt inside => later stmt (locals stmt inside)⟩,
            ?_, ?_⟩
          · exact ⟨v, .head _, scope, _, _, rfl⟩
          · refine List.forall_mem_cons.mpr ⟨fun scope' => ?_, parameter⟩
            exact absurd (scope.symm.trans scope') (by simp)
          · refine List.forall_mem_cons.mpr ⟨fun _ => .head _, fun v' member scope' => ?_⟩
            exact .tail _ («local» v' member scope')
    · rename_i other
      rw [if_neg other] at clean
      obtain ⟨locals, parameter, «local»⟩ := ih s clean
      refine ⟨fun stmt inside => later stmt (locals stmt inside), ?_, ?_⟩
      · refine List.forall_mem_cons.mpr ⟨fun scope => absurd ?_ other, parameter⟩
        rw [scope]
        rfl
      · refine List.forall_mem_cons.mpr ⟨fun scope => absurd ?_ other, «local»⟩
        rw [scope]
        rfl

/-- While a function is translated without errors, its variables are. -/
theorem functionMethod_allots {env : TranslationEnv} (builtIn : env.graph.BuiltIn)
    (function : NodeId) (decl : FunctionDecl) (s : TranslatorState)
    (clean : ((functionMethod env function decl).run s).2.context.errors = s.context.errors) :
    Allots function env.graph.vars.values
      ((translateVariables env function env.graph.vars.values).run
        { s with bound := ∅, closed := [], names := [] }).1 := by
  have introduced := (translateVariables_introduces env function env.graph.vars.values
    { s with bound := ∅, closed := [], names := [] }).errors
  have allots := translateVariables_allots env function env.graph.vars.values
    { s with bound := ∅, closed := [], names := [] }
  rw [functionMethod_run] at clean
  generalize (translateVariables env function env.graph.vars.values).run
    { s with bound := ∅, closed := [], names := [] } = r at introduced allots clean
  have later : r.2.context.errors <+:
      ((completeMethod env function decl r.1.1 r.1.2).run r.2).2.context.errors :=
    (completeMethod_declares builtIn r.1.1 r.1.2 r.2).1
  exact allots (introduced.eq_of_length_le (clean ▸ later.length_le)).symm

/-- A variable is declared where the part of a method runs that a function became: in the class if
it belongs to no function, and otherwise, if it belongs to that one, as a parameter of the method or
among the locals in front of its statements. -/
def VariableDecl.DeclaredFor (v : VariableDecl) (function : NodeId) (c : ClassDecl) (m : MethodDecl)
    (locals : List Stmt) : Prop :=
  match v.scope with
  | .field => sanitize v.name ∈ c.fields.map (·.name)
  | .parameter owner => owner = function ∧ sanitize v.name ∈ m.parameters.map (·.name)
  | .local owner => owner = function ∧ sanitize v.name ∈ Stmt.blockNames locals

/-- Without errors the part of a method that a function became is the declarations of its locals and
statements in front of which the class, the method or these declare every variable that they use,
unless it belongs to another function. -/
theorem TranslationEnv.uses_declared (env : TranslationEnv) (builtIn : env.graph.BuiltIn)
    (trace : Option TraceRecord) (clean : (env.translate trace).errors = []) (m : MethodDecl)
    (emitted : m ∈ (env.translate trace).unit.classDecl.methods) (p : FunctionPart)
    (member : p ∈ env.partsOf trace m.name) :
    ∃ locals statements, p.method.body = locals ++ statements ∧ p.method.body <:+: m.body ∧
      (∀ stmt ∈ locals, ∃ v ∈ env.graph.vars.values, v.scope = .local p.function ∧ ∃ type value,
        stmt = .declare (some p.function) (some type) (sanitize v.name) (some value)) ∧
      (∃ after, Scoped env [] statements after) ∧
      ∀ v, env.Uses statements v →
        v.DeclaredFor p.function (env.translate trace).unit.classDecl m locals ∨
          ∃ other ≠ p.function, v.scope.function? = some other := by
  obtain ⟨s, files, -⟩ := translate_files builtIn.extensionsFileNothing clean
  obtain ⟨before, made, silent⟩ := files.made (List.mem_of_mem_filter member)
  obtain ⟨-, body, parameters⟩ := env.assembles builtIn.extensionsFileNothing clean emitted
  have allots := functionMethod_allots builtIn p.function p.decl before silent
  obtain ⟨-, own, statements, after, whole, -, within⟩ :=
    (functionMethod_made builtIn p.function p.decl before rfl).2 silent
  rw [← made] at own whole
  refine ⟨_, statements, whole, ?_, allots.locals, ⟨after, within⟩, fun v uses => ?_⟩
  · rw [body]
    obtain ⟨front, rest, split⟩ := List.append_of_mem member
    rw [split, List.flatMap_append, List.flatMap_cons, ← List.append_assoc, ← List.append_assoc]
    exact List.infix_append _ _ _
  · unfold VariableDecl.DeclaredFor
    cases scope : v.scope with
    | field =>
      obtain ⟨f, inside, named⟩ := exists_field (builtIn.keeps _) clean uses.mem scope
      exact .inl (List.mem_map.mpr ⟨f, inside, named⟩)
    | parameter owner =>
      by_cases same : owner = p.function
      · subst same
        rw [← parameters p member, own]
        exact .inl ⟨rfl, allots.parameter v uses.mem scope⟩
      · exact .inr ⟨owner, same, rfl⟩
    | «local» owner =>
      by_cases same : owner = p.function
      · subst same
        exact .inl ⟨rfl, allots.local v uses.mem scope⟩
      · exact .inr ⟨owner, same, rfl⟩

/-- A counter that every frame adds the speed of a field to its own count. -/
def tally : Graph :=
  { Graph.empty "Tally" with
    nodes := ⟨
      [placed 10 (.function (.onEvent .update)) none [⟨numbered 30⟩] [.execOutput "Out"],
        placed 20 (.getVariable ⟨numbered 80⟩) none [] [.dataOutput "Value" .float],
        placed 30 (.setVariable ⟨numbered 81⟩) (some ⟨numbered 10⟩) []
          [.dataInput "Value" .float]], by decide⟩
    edges := ⟨[wired 71 20 21 30 31], by decide⟩
    vars := ⟨
      [(⟨numbered 80⟩, ⟨⟨numbered 80⟩, "speed", .float, .field, true, none⟩),
        (⟨numbered 81⟩, ⟨⟨numbered 81⟩, "count", .float, .local ⟨numbered 10⟩, false, none⟩)],
      by decide⟩ }

def tallyEnv : TranslationEnv := ⟨tally, TypeDatabase.standard.toOracle, .standard, ∅⟩

theorem TranslationEnv.uses_declared_tally :
    tally.BuiltIn ∧ (tallyEnv.translate none).errors = [] ∧
      ∃ m ∈ (tallyEnv.translate none).unit.classDecl.methods,
      ∃ p ∈ tallyEnv.partsOf none m.name,
      ∃ locals statements, p.method.body = locals ++ statements ∧ p.method.body <:+: m.body ∧
        (∀ stmt ∈ locals, ∃ v ∈ tally.vars.values, v.scope = .local p.function ∧ ∃ type value,
          stmt = .declare (some p.function) (some type) (sanitize v.name) (some value)) ∧
        (∃ after, Scoped tallyEnv [] statements after) ∧
        ∀ v, tallyEnv.Uses statements v →
          v.DeclaredFor p.function (tallyEnv.translate none).unit.classDecl m locals ∨
            ∃ other ≠ p.function, v.scope.function? = some other := by
  have builtIn : tally.BuiltIn := Graph.BuiltIn.of_entries (by decide)
  have clean : (tallyEnv.translate none).errors = [] := by decide +kernel
  have names : (tallyEnv.translate none).unit.classDecl.methods.map (·.name) = ["Update"] := by
    decide +kernel
  obtain ⟨m, only, named⟩ := List.map_eq_singleton_iff.mp names
  have emitted : m ∈ (tallyEnv.translate none).unit.classDecl.methods :=
    only ▸ List.mem_singleton_self m
  have functions : (tallyEnv.partsOf none "Update").map (·.function) = [⟨numbered 10⟩] := by
    decide +kernel
  obtain ⟨p, alone, -⟩ := List.map_eq_singleton_iff.mp functions
  have member : p ∈ tallyEnv.partsOf none m.name := by
    rw [named, alone]
    exact List.mem_singleton_self p
  exact ⟨builtIn, clean, m, emitted, p, member,
    uses_declared tallyEnv builtIn none clean m emitted p member⟩

/-- Two functions, the second of which assigns a local of the first. -/
def borrowed : Graph :=
  { Graph.empty "Borrowed" with
    nodes := ⟨
      [placed 10 (.function (.onEvent .start)) none [] [.execOutput "Out"],
        placed 20 (.function (.onEvent .update)) none [⟨numbered 30⟩] [.execOutput "Out"],
        placed 30 (.setVariable ⟨numbered 80⟩) (some ⟨numbered 20⟩) []
          [.dataInput "Value" .float]], by decide⟩
    vars := ⟨[(⟨numbered 80⟩, ⟨⟨numbered 80⟩, "x", .float, .local ⟨numbered 10⟩, false, none⟩)],
      by decide⟩ }

def borrowedEnv : TranslationEnv := ⟨borrowed, TypeDatabase.standard.toOracle, .standard, ∅⟩

/-- The node and the name of an assignment to a name. -/
def Stmt.assigned? : Stmt → Option (NodeId × String)
  | .assign (some node) (.ident name) _ => some (node, name)
  | _ => none

theorem Stmt.assigned?_eq_some {stmt : Stmt} {node : NodeId} {name : String} :
    stmt.assigned? = some (node, name) ↔
      ∃ value, stmt = .assign (some node) (.ident name) value := by
  constructor
  · intro assigned
    unfold Stmt.assigned? at assigned
    split at assigned
    · obtain ⟨rfl, rfl⟩ := Prod.mk.inj (Option.some.inj assigned)
      exact ⟨_, rfl⟩
    · exact nomatch assigned
  · rintro ⟨value, rfl⟩
    rfl

/-- The method of the second function assigns the local of the first, which is no field, no
parameter and not declared there. -/
theorem TranslationEnv.uses_declared_borrowed :
    borrowed.BuiltIn ∧ (borrowedEnv.translate none).errors = [] ∧
      ∃ m ∈ (borrowedEnv.translate none).unit.classDecl.methods,
      ∃ p ∈ borrowedEnv.partsOf none m.name, ∃ v, borrowedEnv.Uses p.method.body v ∧
        sanitize v.name ∉ (borrowedEnv.translate none).unit.classDecl.fields.map (·.name) ∧
        sanitize v.name ∉ m.parameters.map (·.name) ∧ sanitize v.name ∉ p.declaredNames := by
  have methods : (borrowedEnv.translate none).unit.classDecl.methods.map
      (fun m => (m.name, m.parameters)) = [("Start", []), ("Update", [])] := by decide +kernel
  have emitted : ("Update", []) ∈ (borrowedEnv.translate none).unit.classDecl.methods.map
      (fun m => (m.name, m.parameters)) := methods ▸ .tail _ (.head _)
  obtain ⟨m, there, shape⟩ := List.mem_map.mp emitted
  obtain ⟨named, parameters⟩ := Prod.mk.inj shape
  have parts : (borrowedEnv.partsOf none "Update").map
      (fun p => (p.method.body.map Stmt.assigned?, p.declaredNames)) =
        [([some (⟨numbered 30⟩, "x")], [])] := by decide +kernel
  obtain ⟨p, alone, shape⟩ := List.map_eq_singleton_iff.mp parts
  obtain ⟨assigns, declared⟩ := Prod.mk.inj shape
  obtain ⟨stmt, body, assigned⟩ := List.map_eq_singleton_iff.mp assigns
  obtain ⟨value, rfl⟩ := Stmt.assigned?_eq_some.mp assigned
  have fields : (borrowedEnv.translate none).unit.classDecl.fields = [] := by decide +kernel
  refine ⟨Graph.BuiltIn.of_entries (by decide), by decide +kernel, m, there, p, ?_,
    ⟨⟨numbered 80⟩, "x", .float, .local ⟨numbered 10⟩, false, none⟩, ?_, ?_, ?_, ?_⟩
  · rw [named, alone]
    exact List.mem_singleton_self p
  · rw [body]
    have found : borrowedEnv.graph.node? ⟨numbered 30⟩ = some _ := rfl
    exact .assigned found rfl rfl (.here (List.mem_singleton_self _))
  · rw [fields]
    exact List.not_mem_nil
  · rw [parameters]
    exact List.not_mem_nil
  · rw [declared]
    exact List.not_mem_nil

end NodeScript
