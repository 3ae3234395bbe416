import NodeScript.Proofs.Graph.Join
import NodeScript.Proofs.Translation.Assembly
import NodeScript.Typing.TypeDatabase

/-!
The fields of a class and the variables that belong to no function. Fields are told apart by their
names, which are those of the variables without some of their characters; so of variables whose
names differ in these alone the first has a field, and the others are read from it and written to
it.
-/

namespace NodeScript

open NodeScript.Graph (numbered)

/-- The errors and the fields are the first of those there are afterwards, and names of fields that
were told apart still are. -/
structure TranslationContext.GainsFields (c c' : TranslationContext) : Prop where
  errors : c.errors <+: c'.errors
  fields : c.fields <+: c'.fields
  apart : (c.fields.map (·.name)).Nodup → (c'.fields.map (·.name)).Nodup

theorem TranslationContext.addField_cases (c : TranslationContext) (f : FieldDecl) :
    f.name ∈ c.fields.map (·.name) ∧ (c.addField f).2 = c ∨
      f.name ∉ c.fields.map (·.name) ∧
        (c.addField f).2 = { c with fields := c.fields ++ [f] } := by
  unfold addField
  split
  · rename_i there
    exact .inl ⟨by simpa [hasField] using there, rfl⟩
  · rename_i new
    exact .inr ⟨by simpa [hasField] using new, rfl⟩

namespace TranslationContext.GainsFields

variable {c c' c'' : TranslationContext}

theorem refl (c : TranslationContext) : c.GainsFields c := ⟨List.prefix_rfl, List.prefix_rfl, id⟩

theorem trans (first : c.GainsFields c') (next : c'.GainsFields c'') : c.GainsFields c'' where
  errors := first.errors.trans next.errors
  fields := first.fields.trans next.fields
  apart := next.apart ∘ first.apart

theorem of_fields (errors : c.errors <+: c'.errors) (fields : c'.fields = c.fields) :
    c.GainsFields c' where
  errors := errors
  fields := fields ▸ List.prefix_rfl
  apart nodup := fields ▸ nodup

theorem report (c : TranslationContext) (e : CompilerError) : c.GainsFields (c.report e) :=
  .of_fields (List.prefix_append _ _) rfl

theorem addField (c : TranslationContext) (f : FieldDecl) : c.GainsFields (c.addField f).2 := by
  rcases c.addField_cases f with ⟨-, same⟩ | ⟨new, added⟩
  · rw [same]
    exact .refl c
  · rw [added]
    refine ⟨List.prefix_rfl, List.prefix_append _ _, fun nodup => ?_⟩
    rw [List.map_append, List.map_singleton, ← List.concat_eq_append]
    exact nodup.concat new

end TranslationContext.GainsFields

/-- A part of the translation that adds errors and fields at most, no field twice. -/
def OnlyGainsFields {α : Type} (m : Translate α) : Prop :=
  ∀ s : TranslatorState, s.context.GainsFields (m.run s).2.context

theorem onlyGainsFields_pervades (env : TranslationEnv) :
    Pervades env fun _ m => OnlyGainsFields m :=
  .of_context .refl .trans .report

/-- Extensions whose nodes stand in the graph add errors and fields at most, no field twice. -/
def TranslationEnv.ExtensionsOnlyGainFields (env : TranslationEnv) : Prop :=
  env.Keeps fun _ m => OnlyGainsFields m

section Growth

variable {env : TranslationEnv}

theorem fileMethod_onlyGainsFields (function : NodeId) (decl : FunctionDecl) (m : MethodDecl) :
    OnlyGainsFields (fileMethod function decl m) := by
  intro s
  cases found : s.context.mergeMethod m with
  | error e =>
    simp only [fileMethod, StateT.run_bind, StateT.run_get, pure_bind, found]
    exact .report _ e
  | ok merged =>
    obtain ⟨errors, fields, -⟩ := TranslationContext.mergeMethod_ok found
    have same : s.context.GainsFields merged := .of_fields (errors ▸ List.prefix_rfl) fields
    simp only [fileMethod, StateT.run_bind, StateT.run_get, pure_bind, found]
    split
    · rename_i event _
      obtain ⟨errors, fields, -⟩ :=
        merged.addRegistration_kept m.name (subscription function event m.name)
      exact same.trans (.of_fields (errors ▸ List.prefix_rfl) fields)
    · exact same

theorem translateFunction_onlyGainsFields (extensions : env.ExtensionsOnlyGainFields)
    (function : NodeId)
    (decl : FunctionDecl) : OnlyGainsFields (translateFunction env function decl) := by
  have rules := onlyGainsFields_pervades env
  rw [translateFunction_eq]
  exact rules.bind (rules.functionMethod extensions function decl)
    (fileMethod_onlyGainsFields function decl)

theorem flushRegistrations_grows (c : TranslationContext) (name : String) :
    c.GainsFields (c.flushRegistrations name) := by
  have fields : (c.flushRegistrations name).fields = c.fields := by
    unfold TranslationContext.flushRegistrations
    split <;> rfl
  exact .of_fields (TranslationEnv.flushRegistrations_errors c name ▸ List.prefix_rfl) fields

theorem translateFunctions_onlyGainsFields (extensions : env.ExtensionsOnlyGainFields) :
    OnlyGainsFields (env.graph.functions.forM fun f => translateFunction env f.1 f.2) := by
  apply (onlyGainsFields_pervades env).forM
  intro f
  exact translateFunction_onlyGainsFields extensions f.1 f.2

/-- Translating the functions of a graph and what is left to do then adds errors and fields at
most. -/
theorem TranslationEnv.opened_grows (extensions : env.ExtensionsOnlyGainFields)
    (trace : Option TraceRecord) :
    ∃ c, (env.opened trace).context.GainsFields c ∧ (env.translate trace).errors = c.errors ∧
      (env.translate trace).unit.classDecl.fields = c.fields := by
  let s := ((env.graph.functions.forM fun f => translateFunction env f.1 f.2).run
    (env.opened trace)).2
  have functions : (env.opened trace).context.GainsFields s.context :=
    translateFunctions_onlyGainsFields extensions (env.opened trace)
  have flushed := flushRegistrations_grows s.context env.options.registrationMethod
  refine ⟨s.context.flushRegistrations env.options.registrationMethod, ?_, rfl, rfl⟩
  exact functions.trans flushed

end Growth

section First

variable {env : TranslationEnv} {id id' : VariableId} {v v' w : VariableDecl} {f : FieldDecl}

/-- A field that is made for a variable: it has its type, its visibility and its initial value. -/
structure TranslationEnv.MakesField (env : TranslationEnv) (v : VariableDecl) (f : FieldDecl) :
    Prop where
  name : f.name = sanitize v.name
  visibility : f.visibility = v.visibility
  type : env.typeName? v.type = some f.type
  value : f.value = v.initialValue.map Constant.expr

/-- What becomes of a state while variables are made fields. Without errors there is a field for
every name of a variable, and what is new is made for the first variable with its name. -/
structure MakesFields (env : TranslationEnv) (vars : List VariableDecl) (s s' : TranslatorState) :
    Prop where
  grows : s.context.GainsFields s'.context
  fields : s'.context.errors = s.context.errors →
    ∀ v ∈ vars, ∃ f ∈ s'.context.fields, f.name = sanitize v.name
  new : s'.context.errors = s.context.errors → ∀ f ∈ s'.context.fields, f ∈ s.context.fields ∨
    f.name ∉ s.context.fields.map (·.name) ∧
      ∃ w, vars.find? (sanitize ·.name = f.name) = some w ∧ env.MakesField w f

theorem MakesFields.append {vars vars' : List VariableDecl} {s s' s'' : TranslatorState}
    (first : MakesFields env vars s s') (later : MakesFields env vars' s' s'') :
    MakesFields env (vars ++ vars') s s'' := by
  -- what stands between two equal lists of errors is equal to both
  have middle : s''.context.errors = s.context.errors → s'.context.errors = s.context.errors :=
    fun same => (first.grows.errors.eq_of_length_le (same ▸ later.grows.errors.length_le)).symm
  refine ⟨first.grows.trans later.grows, fun same v member => ?_, fun same f inside => ?_⟩
  · rcases List.mem_append.mp member with early | late
    · obtain ⟨f, inside, named⟩ := first.fields (middle same) v early
      exact ⟨f, later.grows.fields.subset inside, named⟩
    · exact later.fields (same.trans (middle same).symm) v late
  rcases later.new (same.trans (middle same).symm) f inside with early | ⟨new, w, found, makes⟩
  · rcases first.new (middle same) f early with old | ⟨new, w, found, makes⟩
    · exact .inl old
    · exact .inr ⟨new, w, by rw [List.find?_append, found, Option.some_or], makes⟩
  · refine .inr ⟨fun old => new (List.map_subset _ first.grows.fields.subset old), w, ?_, makes⟩
    -- fields for the variables in front are there by then, so none of these has the name
    have none : vars.find? (sanitize ·.name = f.name) = none := by
      refine List.find?_eq_none.mpr fun v member named => new ?_
      obtain ⟨f', there, named'⟩ := first.fields (middle same) v member
      exact List.mem_map.mpr ⟨f', there, named'.trans (of_decide_eq_true named)⟩
    rw [List.find?_append, none, Option.none_or, found]

theorem translateField_makesFields (env : TranslationEnv) (v : VariableDecl) (s : TranslatorState) :
    MakesFields env [v] s ((translateField env v).run s).2 := by
  unfold translateField
  split
  · let e : CompilerError := .translation none v.unknownType
    have longer : (s.context.report e).errors ≠ s.context.errors := by
      simp [TranslationContext.report]
    exact ⟨.report s.context e, fun same => absurd same longer, fun same => absurd same longer⟩
  · rename_i type known
    let made : FieldDecl :=
      ⟨v.visibility, type, sanitize v.name, v.initialValue.map Constant.expr⟩
    have makes : env.MakesField v made := ⟨rfl, rfl, known, rfl⟩
    suffices told : (∃ f ∈ (s.context.addField made).2.fields, f.name = sanitize v.name) ∧
        ∀ f ∈ (s.context.addField made).2.fields, f ∈ s.context.fields ∨
          f.name ∉ s.context.fields.map (·.name) ∧
            ∃ w, [v].find? (sanitize ·.name = f.name) = some w ∧ env.MakesField w f from
      ⟨.addField s.context made, fun _ => List.forall_mem_singleton.mpr told.1, fun _ => told.2⟩
    rcases s.context.addField_cases made with ⟨there, same⟩ | ⟨new, added⟩
    · rw [same]
      exact ⟨List.mem_map.mp there, fun f inside => .inl inside⟩
    · rw [added]
      refine ⟨⟨made, by simp, rfl⟩, fun f inside => ?_⟩
      rcases List.mem_append.mp inside with old | last
      · exact .inl old
      · obtain rfl := List.mem_singleton.mp last
        exact .inr ⟨new, v, List.find?_cons_of_pos (by simp [made]), makes⟩

theorem forM_translateField_makesFields (env : TranslationEnv) (vars : List VariableDecl)
    (s : TranslatorState) : MakesFields env vars s ((vars.forM (translateField env)).run s).2 := by
  induction vars generalizing s with
  | nil => exact ⟨.refl _, fun _ => nofun, fun _ f inside => .inl inside⟩
  | cons v rest ih => exact (translateField_makesFields env v s).append (ih _)

/-- The variables that belong to no function. -/
def TranslationEnv.fieldVariables (env : TranslationEnv) : List VariableDecl :=
  env.graph.vars.values.filter fun v => v.scope = .field

/-- In a translation without errors the fields have different names, and among them is one for every
name of a variable that belongs to no function, made for the first variable that has it. -/
theorem TranslationEnv.fields_first (extensions : env.ExtensionsOnlyGainFields)
    {trace : Option TraceRecord}
    (clean : (env.translate trace).errors = []) :
    ((env.translate trace).unit.classDecl.fields.map (·.name)).Nodup ∧
      ∀ v ∈ env.fieldVariables, ∃ w, ∃ f ∈ (env.translate trace).unit.classDecl.fields,
        env.fieldVariables.find? (sanitize ·.name = sanitize v.name) = some w ∧
          env.MakesField w f := by
  obtain ⟨c, grows, errors, fields⟩ := env.opened_grows extensions trace
  let start : TranslatorState := ⟨.empty, trace.map (·.beginGraph env.graph.name), ∅, [], []⟩
  have opens : MakesFields env env.fieldVariables start (env.opened trace) :=
    forM_translateField_makesFields env env.fieldVariables start
  have silent : (env.opened trace).context.errors = [] :=
    List.prefix_nil.mp ((errors.symm.trans clean) ▸ grows.errors)
  rw [fields]
  refine ⟨grows.apart (opens.grows.apart List.nodup_nil), fun v member => ?_⟩
  obtain ⟨f, inside, named⟩ := opens.fields silent v member
  rcases opens.new silent f inside with nothing | ⟨-, w, found, makes⟩
  · exact nomatch nothing
  · exact ⟨w, f, grows.fields.subset inside, named ▸ found, makes⟩

/-- After a translation without errors every variable that belongs to no function is a field. -/
theorem TranslationEnv.exists_field (extensions : env.ExtensionsOnlyGainFields)
    {trace : Option TraceRecord}
    (clean : (env.translate trace).errors = []) (member : v ∈ env.graph.vars.values)
    (scope : v.scope = .field) :
    ∃ f ∈ (env.translate trace).unit.classDecl.fields, f.name = sanitize v.name := by
  have listed : v ∈ env.fieldVariables := List.mem_filter.mpr ⟨member, by simpa using scope⟩
  obtain ⟨w, f, inside, found, makes⟩ := (fields_first extensions clean).2 v listed
  exact ⟨f, inside, makes.name.trans (by simpa using List.find?_some found)⟩

/-- A variable of the graph that belongs to no function. -/
def TranslationEnv.DeclaresField (env : TranslationEnv) (id : VariableId) (v : VariableDecl) :
    Prop :=
  env.graph.variableDecl? id = some v ∧ v.scope = .field

/-- A field that stands for a variable in a class: it has the visibility, the type and the initial
value of the variable, and it is what is assigned and read where the variable is. -/
structure TranslationEnv.FieldFor (env : TranslationEnv) (c : ClassDecl) (id : VariableId)
    (v : VariableDecl) (f : FieldDecl) : Prop where
  member : f ∈ c.fields
  visibility : f.visibility = v.visibility
  type : env.typeName? v.type = some f.type
  value : f.value = v.initialValue.map Constant.expr
  written : ∀ n, n.kind = .setVariable id → ∀ chain s, ∃ value,
    ((translateNode env chain n).run s).1 = [.assign (some n.id) (.ident f.name) value]
  read : ∀ node input source port origin, env.graph.inputSource? node input = some (source, port) →
    env.graph.node? source.id = some origin → origin.kind = .getVariable id →
    ∀ depth under s e, s.bound.get? ⟨source.id, port.name⟩ = none →
      ((env.inputWithin depth under node input).run.run s).1 = .ok e → e = .ident f.name

theorem translateNode_assigns {n : Node} (kind : n.kind = .setVariable id)
    (declared : env.graph.variableDecl? id = some v) (chain : BranchTranslator)
    (s : TranslatorState) : ∃ value,
      ((translateNode env chain n).run s).1 =
        [.assign (some n.id) (.ident (sanitize v.name)) value] := by
  simp only [translateNode, kind, translateAssignment, declared]
  exact ⟨_, rfl⟩

/-- A connected input that is given a value has that of the output, if no local holds it. -/
theorem TranslationEnv.inputFrom_connected {under : List NodeId}
    {build : NodeId → Node → String → Evaluate Expr} {node : NodeId} {input : String}
    {source origin : Node} {port : Port} {s : TranslatorState} {e : Expr}
    (connected : env.graph.inputSource? node input = some (source, port))
    (found : env.graph.node? source.id = some origin)
    (free : s.bound.get? ⟨source.id, port.name⟩ = none)
    (given : ((env.inputFrom under build node input).run.run s).1 = .ok e) :
    ((build source.id origin port.name).run.run s).1 = .ok e := by
  unfold inputFrom at given
  split at given
  · exact nomatch given
  split at given
  · exact nomatch given
  rw [connected] at given
  have given : ((env.sourceExpr under build source port.name s.bound s.closed).run.run s).1 =
      .ok e := given
  unfold sourceExpr at given
  rw [free, found] at given
  simp only at given
  split at given
  · exact nomatch given
  split at given
  · exact nomatch given
  · exact given

theorem TranslationEnv.inputWithin_reads {node : NodeId} {input : String} {source origin : Node}
    {port : Port} (connected : env.graph.inputSource? node input = some (source, port))
    (found : env.graph.node? source.id = some origin) (kind : origin.kind = .getVariable id)
    (declared : env.graph.variableDecl? id = some v) {depth : Nat} {under : List NodeId}
    {s : TranslatorState} {e : Expr} (free : s.bound.get? ⟨source.id, port.name⟩ = none)
    (given : ((env.inputWithin depth under node input).run.run s).1 = .ok e) :
    e = .ident (sanitize v.name) := by
  cases depth with
  | zero => exact nomatch inputFrom_connected connected found free given
  | succ depth =>
    have built := inputFrom_connected connected found free given
    simp only [valueOf, kind, declared] at built
    exact (Except.ok.inj built).symm

theorem TranslationEnv.mem_fieldVariables :
    v ∈ env.fieldVariables ↔ ∃ id, env.DeclaresField id v := by
  simp only [fieldVariables, List.mem_filter, decide_eq_true_eq, OrderedMap.mem_values_iff,
    ← OrderedMap.get?_eq_some_iff, ← exists_and_right]
  rfl

theorem TranslationEnv.MakesField.fieldFor {c : ClassDecl} (makes : env.MakesField v f)
    (member : f ∈ c.fields) (declared : env.graph.variableDecl? id = some v) :
    env.FieldFor c id v f where
  member := member
  visibility := makes.visibility
  type := makes.type
  value := makes.value
  written _ kind chain s := makes.name ▸ translateNode_assigns kind declared chain s
  read _ _ _ _ _ connected found kind _ _ _ _ free given :=
    makes.name ▸ inputWithin_reads connected found kind declared free given

/-- The field that stands for a variable has its name, since that is what is assigned. -/
theorem TranslationEnv.FieldFor.name {c : ClassDecl} (stands : env.FieldFor c id v f)
    (declared : env.graph.variableDecl? id = some v) : f.name = sanitize v.name := by
  let chain : BranchTranslator := fun _ _ => pure []
  let n := Node.new default (.setVariable id)
  obtain ⟨value, named⟩ := stands.written n rfl chain default
  obtain ⟨value', assigned⟩ := translateNode_assigns (n := n) rfl declared chain default
  have same : [Stmt.assign (some n.id) (.ident f.name) value] =
      [.assign (some n.id) (.ident (sanitize v.name)) value'] := named.symm.trans assigned
  simp only [List.cons.injEq, Stmt.assign.injEq, Expr.ident.injEq] at same
  exact same.1.2.1

/-- All variables that belong to no function have fields of a class, each its own. -/
def TranslationEnv.OwnFields (env : TranslationEnv) (c : ClassDecl) : Prop :=
  ∃ field : VariableId → FieldDecl,
    (∀ id v, env.DeclaresField id v → env.FieldFor c id v (field id)) ∧
      ∀ id id' v v', env.DeclaresField id v → env.DeclaresField id' v' →
        field id = field id' → id = id'

theorem TranslationEnv.DeclaresField.unique (declares : env.DeclaresField id v)
    (declares' : env.DeclaresField id v') : v = v' :=
  Option.some.inj (declares.1.symm.trans declares'.1)

/-- In a translation without errors fields have different names, and of the variables with one name
that belong to no function the first has the field. So all of them have fields of their own exactly
if no two have one name. -/
theorem TranslationEnv.ownFields_iff (extensions : env.ExtensionsOnlyGainFields)
    {trace : Option TraceRecord}
    (clean : (env.translate trace).errors = []) :
    let c := (env.translate trace).unit.classDecl
    (c.fields.map (·.name)).Nodup ∧
      (∀ id v, env.DeclaresField id v → ∃ w, ∃ f ∈ c.fields,
        env.fieldVariables.find? (sanitize ·.name = sanitize v.name) = some w ∧
          env.MakesField w f) ∧
      (env.OwnFields c ↔ ∀ id id' v v', env.DeclaresField id v → env.DeclaresField id' v' →
        sanitize v.name = sanitize v'.name → id = id') := by
  intro c
  obtain ⟨nodup, first⟩ := fields_first extensions clean
  have made : ∀ id v, env.DeclaresField id v → ∃ w, ∃ f ∈ c.fields,
      env.fieldVariables.find? (sanitize ·.name = sanitize v.name) = some w ∧
        env.MakesField w f :=
    fun id v declares => first v (mem_fieldVariables.mpr ⟨id, declares⟩)
  refine ⟨nodup, made, ?_, fun apart => ?_⟩
  · rintro ⟨field, stands, own⟩ id id' v v' declares declares' same
    refine own id id' v v' declares declares' ?_
    have named : (field id).name = (field id').name :=
      ((stands id v declares).name declares.1).trans
        (same.trans ((stands id' v' declares').name declares'.1).symm)
    exact List.inj_on_of_nodup_map nodup (stands id v declares).member
      (stands id' v' declares').member named
  · have each : ∀ id, ∃ f, ∀ v, env.DeclaresField id v → env.FieldFor c id v f := by
      intro id
      by_cases declared : ∃ v, env.DeclaresField id v
      · obtain ⟨v, declares⟩ := declared
        obtain ⟨w, f, member, found, makes⟩ := made id v declares
        -- the first variable with the name is the only one, so it is this one
        obtain ⟨id', declares'⟩ := mem_fieldVariables.mp (List.mem_of_find?_eq_some found)
        have same : sanitize w.name = sanitize v.name := by simpa using List.find?_some found
        obtain rfl : id' = id := apart id' id w v declares' declares same
        obtain rfl : w = v := declares'.unique declares
        refine ⟨f, fun v' other => ?_⟩
        obtain rfl : w = v' := declares.unique other
        exact makes.fieldFor member declares.1
      · exact ⟨default, fun v declares => absurd ⟨v, declares⟩ declared⟩
    choose field stands using each
    refine ⟨field, stands, fun id id' v v' declares declares' same => ?_⟩
    refine apart id id' v v' declares declares' ?_
    calc sanitize v.name = (field id).name := ((stands id v declares).name declares.1).symm
      _ = (field id').name := by rw [same]
      _ = sanitize v'.name := (stands id' v' declares').name declares'.1

/-- A graph with two variables that belong to no function, the second with a name of choice. -/
def twoFields (name : String) : Graph :=
  { Graph.empty "Fields" with
    vars := ⟨
      [(⟨numbered 80⟩, ⟨⟨numbered 80⟩, "x y", .float, .field, true, none⟩),
        (⟨numbered 81⟩, ⟨⟨numbered 81⟩, name, ⟨"string"⟩, .field, false, none⟩)],
      (by decide : [(⟨numbered 80⟩ : VariableId), ⟨numbered 81⟩].Nodup)⟩ }

def twoFieldsEnv (name : String) : TranslationEnv :=
  ⟨twoFields name, TypeDatabase.standard.toOracle, .standard, ∅⟩

theorem TranslationEnv.ownFields_iff_told_apart :
    (twoFieldsEnv "z").ExtensionsOnlyGainFields ∧ ((twoFieldsEnv "z").translate none).errors = [] ∧
      (twoFieldsEnv "z").OwnFields ((twoFieldsEnv "z").translate none).unit.classDecl := by
  have builtIn : (twoFieldsEnv "z").graph.BuiltIn := Graph.BuiltIn.of_entries (by decide)
  have extensions : (twoFieldsEnv "z").ExtensionsOnlyGainFields := builtIn.keeps _
  have clean : ((twoFieldsEnv "z").translate none).errors = [] := by decide +kernel
  refine ⟨extensions, clean, (ownFields_iff extensions clean).2.2.mpr ?_⟩
  intro id id' v v' declares declares' same
  have first := OrderedMap.get?_eq_some_iff.mp declares.1
  have second := OrderedMap.get?_eq_some_iff.mp declares'.1
  simp only [twoFieldsEnv, twoFields, List.mem_cons, Prod.mk.injEq, List.not_mem_nil, or_false]
    at first second
  have apart : sanitize "x y" ≠ sanitize "z" := by decide
  rcases first with ⟨rfl, rfl⟩ | ⟨rfl, rfl⟩ <;> rcases second with ⟨rfl, rfl⟩ | ⟨rfl, rfl⟩
  · rfl
  · exact absurd same apart
  · exact absurd same.symm apart
  · rfl

/-- Of the variables `x y` and `xy` the second has no field, and no error tells of that. -/
theorem TranslationEnv.ownFields_alias :
    (twoFieldsEnv "xy").ExtensionsOnlyGainFields ∧
      ((twoFieldsEnv "xy").translate none).errors = [] ∧
      ¬ (twoFieldsEnv "xy").OwnFields ((twoFieldsEnv "xy").translate none).unit.classDecl := by
  have builtIn : (twoFieldsEnv "xy").graph.BuiltIn := Graph.BuiltIn.of_entries (by decide)
  refine ⟨builtIn.keeps _, by decide +kernel, ?_⟩
  rintro ⟨field, stands, own⟩
  have names : ((twoFieldsEnv "xy").translate none).unit.classDecl.fields.map (·.name) =
      ["xy"] := by
    decide +kernel
  obtain ⟨f, only, -⟩ := List.map_eq_singleton_iff.mp names
  have alone : ∀ id v, (twoFieldsEnv "xy").DeclaresField id v → field id = f := by
    intro id v declares
    have member := (stands id v declares).member
    rw [only] at member
    exact List.mem_singleton.mp member
  have first : (twoFieldsEnv "xy").DeclaresField ⟨numbered 80⟩ _ := ⟨rfl, rfl⟩
  have second : (twoFieldsEnv "xy").DeclaresField ⟨numbered 81⟩ _ := ⟨rfl, rfl⟩
  have same := own _ _ _ _ first second ((alone _ _ first).trans (alone _ _ second).symm)
  exact absurd same (by decide)

end First

end NodeScript
