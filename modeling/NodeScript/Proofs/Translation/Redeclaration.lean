import NodeScript.Proofs.Translation.Assembly
import NodeScript.Proofs.Translation.Blocks
import NodeScript.Proofs.Translation.WellScoped

/-!
Names that are declared twice. The method of one function declares every name once. Where the methods
of several functions are merged it depends on their names, for every function starts with none taken.
-/

namespace NodeScript

open NodeScript.Graph (placed wired numbered)

variable {env : TranslationEnv}

/-- The names of the parameters and the local variables of a function. -/
def Graph.variableNames (g : Graph) (function : NodeId) : List String :=
  (g.vars.values.filter fun v => v.scope.function? = some function).map (sanitize ·.name)

/-- Parameters and locals have the names of their variables, each of them at most once. -/
theorem translateVariables_names (env : TranslationEnv) (function : NodeId)
    (vars : List VariableDecl) (s : TranslatorState) :
    ((((translateVariables env function vars).run s).1.1.map (·.name)) ++
        Stmt.blockNames ((translateVariables env function vars).run s).1.2).Subperm
      ((vars.filter fun v => v.scope.function? = some function).map (sanitize ·.name)) := by
  induction vars generalizing s with
  | nil => exact List.nil_subperm
  | cons v rest ih =>
    unfold translateVariables
    split
    · rename_i own
      rw [List.filter_cons_of_pos (by simpa using own), List.map_cons]
      split
      · exact (ih _).trans (List.sublist_cons_self _ _).subperm
      · have later := ih { s with names := sanitize v.name :: s.names }
        cases scope : v.scope with
        | parameter => exact (List.subperm_cons _).mpr later
        | field | «local» =>
          refine List.perm_middle.subperm.trans ?_
          exact (List.subperm_cons _).mpr later
    · rename_i other
      rw [List.filter_cons_of_neg (by simpa using other)]
      exact ih s

/-- In the method of one function nothing is declared twice. -/
theorem functionMethod_apart (builtIn : env.graph.BuiltIn) (function : NodeId)
    (decl : FunctionDecl) (distinct : (env.graph.variableNames function).Nodup)
    (s : TranslatorState)
    (clean : ((functionMethod env function decl).run s).2.context.errors = s.context.errors) :
    ((functionMethod env function decl).run s).1.Apart := by
  have introduced := translateVariables_introduces env function env.graph.vars.values
    { s with bound := ∅, closed := [], names := [] }
  have named := translateVariables_names env function env.graph.vars.values
    { s with bound := ∅, closed := [], names := [] }
  cases declared : (translateVariables env function env.graph.vars.values).run
    { s with bound := ∅, closed := [], names := [] } with
  | mk made s' =>
  obtain ⟨params, locals⟩ := made
  obtain ⟨-, parameters, statements, _, body, grown, reads⟩ :=
    (functionMethod_made builtIn function decl s declared).2 clean
  rw [declared] at introduced named
  dsimp only at introduced named parameters body grown
  obtain ⟨ordered, perm, sublist⟩ := named
  obtain ⟨-, localsDistinct, apart⟩ :=
    List.nodup_append.mp (perm.nodup_iff.mp (distinct.sublist sublist))
  have plain : Stmt.innerNamesAll locals = [] := by
    refine Stmt.innerNamesAll_eq_nil fun stmt inside => ?_
    obtain ⟨type, name, value, rfl, -⟩ := introduced.locals stmt inside
    rfl
  have names : (Stmt.blockNames (locals ++ statements) ++
      Stmt.innerNamesAll (locals ++ statements)).Perm
      (Stmt.blockNames locals ++ Stmt.localNamesAll statements) := by
    rw [Stmt.blockNames_append, Stmt.innerNamesAll_append, plain, List.nil_append,
      List.append_assoc]
    exact reads.names_perm.append_left _
  have fresh : ∀ name ∈ Stmt.localNamesAll statements, name ∉ s'.names := by
    intro name member
    have free := grown.free name member
    rw [← Bool.not_eq_true, TranslatorState.isTaken_iff, not_or] at free
    exact free.1
  have taken : ∀ name ∈ Stmt.blockNames locals, name ∈ s'.names := by
    intro name member
    obtain ⟨stmt, inside, own⟩ := List.mem_filterMap.mp member
    obtain ⟨type, name', value, rfl, there⟩ := introduced.locals stmt inside
    exact Option.some.inj own ▸ there
  have once : (Stmt.blockNames locals ++ Stmt.localNamesAll statements).Nodup := by
    refine List.nodup_append.mpr ⟨localsDistinct, grown.nodup, ?_⟩
    rintro name own _ made rfl
    exact fresh name made (taken name own)
  have free : ∀ name ∈ Stmt.blockNames locals ++ Stmt.localNamesAll statements,
      name ∉ params.map (·.name) := by
    rintro name member held
    rcases List.mem_append.mp member with own | made
    · exact apart name held name own rfl
    · obtain ⟨parameter, inside, rfl⟩ := List.mem_map.mp held
      exact fresh _ made (introduced.parameters parameter inside)
  unfold MethodDecl.Apart
  rw [parameters, body]
  exact .of_nodup (names.nodup_iff.mpr once) (fun name member => free name (names.mem_iff.mp member))
    fun distinct _ => Stmt.allApart_of_nodup _ distinct

/-- All names that a part declares. -/
def FunctionPart.declaredNames (p : FunctionPart) : List String :=
  Stmt.blockNames p.method.body ++ Stmt.innerNamesAll p.method.body

/-- Parts whose outermost names are declared nowhere in the other part. -/
def FunctionPart.Apart (p q : FunctionPart) : Prop :=
  (∀ name ∈ Stmt.blockNames p.method.body, name ∉ q.declaredNames) ∧
    ∀ name ∈ Stmt.blockNames q.method.body, name ∉ p.declaredNames

section Merge

variable {parts : List FunctionPart} {around : List String}

theorem blockNames_bodies (parts : List FunctionPart) :
    Stmt.blockNames (parts.flatMap (·.method.body)) =
      parts.flatMap fun p => Stmt.blockNames p.method.body :=
  List.filterMap_flatMap

theorem allApart_bodies : Stmt.AllApart (parts.flatMap (·.method.body)) around ↔
    ∀ p ∈ parts, Stmt.AllApart p.method.body around := by
  induction parts with
  | nil => simp [Stmt.AllApart]
  | cons p rest ih => rw [List.flatMap_cons, Stmt.allApart_append, ih, List.forall_mem_cons]

/-- What a part declares inside its blocks is not declared by the part around them. -/
theorem inner_notMem_own {p : FunctionPart}
    (alone : OpensBlock around (Stmt.blockNames p.method.body) (Stmt.AllApart p.method.body)) :
    ∀ name ∈ Stmt.innerNamesAll p.method.body, name ∉ Stmt.blockNames p.method.body := by
  have widens : Widens (Stmt.blockNames p.method.body) around
      (Stmt.blockNames p.method.body ++ around) := fun name => List.mem_append
  exact ((Stmt.allApart_widen p.method.body widens).mp alone.2.2).2

/-- Bodies in which nothing is declared twice can be put together exactly if no two of them declare
a name that reaches from one into the other. -/
theorem opensBlock_bodies (alone : ∀ p ∈ parts,
      OpensBlock around (Stmt.blockNames p.method.body) (Stmt.AllApart p.method.body)) :
    OpensBlock around (Stmt.blockNames (parts.flatMap (·.method.body)))
        (Stmt.AllApart (parts.flatMap (·.method.body))) ↔
      parts.Pairwise FunctionPart.Apart := by
  -- what a part has in its blocks may not be declared by the outermost statements of any part
  have inside (p) (member : p ∈ parts) :
      Stmt.AllApart p.method.body
          (Stmt.blockNames (parts.flatMap (·.method.body)) ++ around) ↔
        ∀ q ∈ parts, ∀ name ∈ Stmt.blockNames q.method.body,
          name ∉ Stmt.innerNamesAll p.method.body := by
    have widens : Widens (Stmt.blockNames (parts.flatMap (·.method.body)))
        (Stmt.blockNames p.method.body ++ around)
        (Stmt.blockNames (parts.flatMap (·.method.body)) ++ around) := by
      intro name
      rw [List.mem_append, List.mem_append, blockNames_bodies, List.mem_flatMap]
      exact ⟨fun either => either.imp id .inr, fun either => either.elim .inl fun
        | .inl own => .inl ⟨p, member, own⟩
        | .inr held => .inr held⟩
    rw [Stmt.allApart_widen _ widens, blockNames_bodies]
    constructor
    · rintro ⟨-, free⟩ q other name own made
      exact free name made (List.mem_flatMap.mpr ⟨q, other, own⟩)
    · refine fun free => ⟨(alone p member).2.2, fun name made own => ?_⟩
      obtain ⟨q, other, own⟩ := List.mem_flatMap.mp own
      exact free q other name own made
  unfold OpensBlock
  rw [allApart_bodies, blockNames_bodies, List.nodup_flatMap]
  rw [blockNames_bodies] at inside
  constructor
  · rintro ⟨⟨-, disjoint⟩, -, fits⟩
    refine disjoint.imp_of_mem fun {p q} memberP memberQ apart => ?_
    have within := (inside p memberP).mp (fits p memberP) q memberQ
    have within' := (inside q memberQ).mp (fits q memberQ) p memberP
    refine ⟨fun name own => ?_, fun name own => ?_⟩
    · rw [FunctionPart.declaredNames, List.mem_append, not_or]
      exact ⟨fun other => apart own other, within' name own⟩
    · rw [FunctionPart.declaredNames, List.mem_append, not_or]
      exact ⟨fun other => apart other own, within name own⟩
  · intro pairwise
    have crossing : ∀ p ∈ parts, ∀ q ∈ parts, ∀ name ∈ Stmt.blockNames q.method.body,
        name ∉ Stmt.innerNamesAll p.method.body := by
      refine List.Pairwise.forall_of_forall_of_flip (fun p member name own made => ?_)
        (pairwise.imp fun {p q} apart name own made => ?_)
        (pairwise.imp fun {p q} apart name own made => ?_)
      · exact inner_notMem_own (alone p member) name made own
      · exact apart.2 name own (List.mem_append_right _ made)
      · exact apart.1 name own (List.mem_append_right _ made)
    refine ⟨⟨fun p member => (alone p member).1, pairwise.imp fun {p q} apart => ?_⟩, ?_, ?_⟩
    · exact fun name own other => apart.1 name own (List.mem_append_left _ other)
    · intro name own
      obtain ⟨p, member, own⟩ := List.mem_flatMap.mp own
      exact (alone p member).2.1 name own
    · exact fun p member => (inside p member).mpr (crossing p member)

end Merge

/-- What is known of the method of one function is known of every part. -/
theorem TranslationEnv.partsOf_apart (builtIn : env.graph.BuiltIn)
    (distinct : ∀ f ∈ env.graph.functions, (env.graph.variableNames f.1).Nodup)
    {trace : Option TraceRecord} (clean : (env.translate trace).errors = []) {name : String}
    {p : FunctionPart} (member : p ∈ env.partsOf trace name) : p.method.Apart := by
  obtain ⟨s, files, -⟩ := translate_files builtIn.extensionsFileNothing clean
  have inside := List.mem_of_mem_filter member
  obtain ⟨before, made, silent⟩ := files.made inside
  have listed : (p.function, p.decl) ∈ env.graph.functions := by
    rw [← env.parts_functions trace]
    exact List.mem_map_of_mem inside
  rw [made]
  exact functionMethod_apart builtIn p.function p.decl (distinct _ listed) before silent

/-- In what a function becomes nothing is declared twice. In a method nothing is declared twice
exactly if no two of its functions declare a name that reaches from one into the other. -/
theorem TranslationEnv.method_apart_iff (env : TranslationEnv) (builtIn : env.graph.BuiltIn)
    (distinct : ∀ f ∈ env.graph.functions, (env.graph.variableNames f.1).Nodup)
    (trace : Option TraceRecord) (clean : (env.translate trace).errors = []) (m : MethodDecl)
    (emitted : m ∈ (env.translate trace).unit.classDecl.methods) :
    (∀ p ∈ env.partsOf trace m.name, p.method.Apart) ∧
      (m.Apart ↔ (env.partsOf trace m.name).Pairwise FunctionPart.Apart) := by
  have alone : ∀ p ∈ env.partsOf trace m.name, p.method.Apart :=
    fun p member => partsOf_apart builtIn distinct clean member
  obtain ⟨-, body, parameters⟩ := env.assembles builtIn.extensionsFileNothing clean emitted
  have shared : ∀ p ∈ env.partsOf trace m.name, OpensBlock (m.parameters.map (·.name))
      (Stmt.blockNames p.method.body) (Stmt.AllApart p.method.body) :=
    fun p member => parameters p member ▸ alone p member
  refine ⟨alone, ?_⟩
  have front : ∀ s ∈ env.subscriptionsOf trace m.name, s.ownName? = none ∧ s.innerNames = [] := by
    intro s inside
    obtain ⟨node, value, rfl⟩ := effect_of_mem_subscriptionsOf inside
    exact ⟨rfl, rfl⟩
  rw [MethodDecl.Apart, body, OpensBlock.behind_plain front]
  exact opensBlock_bodies shared

/-- Two functions for every frame, each of which calls a method on the result of another call. -/
def harvest : Graph :=
  let call := NodeKind.call (.plain ⟨"Mathf", "Abs"⟩)
  let callPorts := [PortSpec.dataInput "value" .float, .dataOutput "Result" .float]
  { Graph.empty "Harvest" with
    nodes := ⟨
      [placed 10 (.function (.onEvent .update)) none [⟨numbered 20⟩, ⟨numbered 30⟩]
          [.execOutput "Out"],
        placed 20 call (some ⟨numbered 10⟩) [] callPorts,
        placed 30 call (some ⟨numbered 10⟩) [] callPorts,
        placed 40 (.function (.onEvent .update)) none [⟨numbered 50⟩, ⟨numbered 60⟩]
          [.execOutput "Out"],
        placed 50 call (some ⟨numbered 40⟩) [] callPorts,
        placed 60 call (some ⟨numbered 40⟩) [] callPorts], by decide⟩
    edges := ⟨[wired 71 20 22 30 31, wired 72 50 52 60 61], by decide⟩ }

def harvestEnv : TranslationEnv := ⟨harvest, TypeDatabase.standard.toOracle, .standard, ∅⟩

theorem TranslationEnv.method_apart_iff_harvest :
    harvest.BuiltIn ∧ (∀ f ∈ harvest.functions, (harvest.variableNames f.1).Nodup) ∧
      (harvestEnv.translate none).errors = [] ∧
      ∃ m ∈ (harvestEnv.translate none).unit.classDecl.methods,
        (∀ p ∈ harvestEnv.partsOf none m.name, p.method.Apart) ∧
        (m.Apart ↔ (harvestEnv.partsOf none m.name).Pairwise FunctionPart.Apart) := by
  have builtIn : harvest.BuiltIn := Graph.BuiltIn.of_entries (by decide)
  have distinct : ∀ f ∈ harvest.functions, (harvest.variableNames f.1).Nodup := by
    decide +kernel
  have clean : (harvestEnv.translate none).errors = [] := by decide +kernel
  have names : (harvestEnv.translate none).unit.classDecl.methods.map (·.name) = ["Update"] := by
    decide +kernel
  obtain ⟨m, only, -⟩ := List.map_eq_singleton_iff.mp names
  have emitted : m ∈ (harvestEnv.translate none).unit.classDecl.methods :=
    only ▸ List.mem_singleton_self m
  exact ⟨builtIn, distinct, clean, m, emitted,
    method_apart_iff harvestEnv builtIn distinct none clean m emitted⟩

/-- Each function of the harvest declares every name once, and the method of both declares one twice
in one block. -/
theorem TranslationEnv.method_apart_iff_redeclared :
    (∀ f ∈ harvest.functions, (harvest.variableNames f.1).Nodup) ∧
      (harvestEnv.translate none).errors = [] ∧
      (harvestEnv.partsOf none "Update").map FunctionPart.declaredNames = [["abs0"], ["abs0"]] ∧
      ∃ m ∈ (harvestEnv.translate none).unit.classDecl.methods,
        Stmt.blockNames m.body = ["abs0", "abs0"] ∧ ¬ m.Apart := by
  have methods : (harvestEnv.translate none).unit.classDecl.methods.map
      (fun m => Stmt.blockNames m.body) = [["abs0", "abs0"]] := by decide +kernel
  obtain ⟨m, only, declared⟩ := List.map_eq_singleton_iff.mp methods
  refine ⟨by decide +kernel, by decide +kernel, by decide +kernel, m,
    only ▸ List.mem_singleton_self m, declared, fun apart => ?_⟩
  have once := apart.1
  rw [declared] at once
  exact absurd once (by decide)

end NodeScript
