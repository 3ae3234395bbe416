import NodeScript.Build.Program
import NodeScript.Proofs.Assets.FileTree
import NodeScript.Proofs.Build.Batches
import NodeScript.Proofs.Build.Runs

/-!
The files that a build leaves. The code of each compiled graph is written to a file that is named after
its class, one graph after the other; so the file of a class holds the code of the last graph of that
class, and the code of the others is lost. Classes are named after graphs, and graphs of different paths
may have one name.
-/

namespace NodeScript

/-! ### Names of classes -/

section Names

theorem Graph.defineNode_name {g g' : Graph} {env : DefinitionEnv} {id : NodeId}
    {supply supply' : IdSupply} (run : g.defineNode env id supply = .ok (g', supply')) :
    g'.name = g.name := by
  rw [defineNode] at run
  split at run
  · exact nomatch run
  · split at run
    · exact nomatch run
    · cases run
      rfl

theorem Graph.defineAll_name (env : DefinitionEnv) (nodes : List NodeId) (g : Graph)
    (supply : IdSupply) : (defineAll env nodes g supply).2.1.name = g.name := by
  induction nodes generalizing g supply with
  | nil => rfl
  | cons id rest ih =>
    rw [defineAll]
    split
    · rename_i defined
      rw [ih, defineNode_name defined]
    · exact ih g supply

theorem Graph.inferNode_name (g : Graph) (env : DefinitionEnv) (id : NodeId) (supply : IdSupply) :
    (g.inferNode env id supply).2.1.name = g.name := by
  unfold inferNode
  split
  · rfl
  · split
    · split
      · rfl
      · split
        · rfl
        · dsimp only
          split
          · rfl
          · rename_i defined
            have kept := defineNode_name defined
            split
            · exact kept
            · exact kept
    · rfl

theorem Graph.inferPasses_name (env : DefinitionEnv) (calls : List NodeId) (passes : Nat)
    (pass : InferencePass) : (inferPasses env calls passes pass).graph.name = pass.graph.name := by
  have once : ∀ pass : InferencePass,
      (calls.foldl (InferencePass.step env) pass).graph.name = pass.graph.name := by
    induction calls with
    | nil => exact fun _ => rfl
    | cons id rest ih => exact fun pass => (ih _).trans (inferNode_name _ env id _)
  induction passes generalizing pass with
  | zero => rfl
  | succ passes ih =>
    rw [inferPasses]
    split
    · rw [ih, once]
    · rw [once]

/-- Preparing a graph does not change its name. -/
theorem GraphTools.prepare_name (tools : GraphTools) (g : Graph) (supply : IdSupply) :
    (tools.prepare g supply).2.1.name = g.name := by
  have defined := Graph.defineAll_name tools.definitionEnv
    ((g.nodes.values.filter fun n => !n.defined).map (·.id)) g supply
  exact (Graph.inferPasses_name _ _ _ _).trans defined

/-- A text that can be the name of a class: it is made of characters that identifiers may hold. -/
def IsClassName (name : String) : Prop := ∀ c ∈ name.toList, isIdentifierChar c = true

theorem sanitize_isClassName (name : String) : IsClassName (sanitize name) := by
  have kept : ∀ c ∈ name.toList.filter isIdentifierChar, isIdentifierChar c = true :=
    fun c member => (List.mem_filter.mp member).2
  intro c member
  rw [sanitize, String.toList_ofList] at member
  split at member
  · exact kept c member
  · obtain rfl | member := List.mem_cons.mp member
    · decide
    · exact kept c member

/-- The path of the file of a class in a directory. -/
def classFile (directory name : String) : String := joinPath directory (name ++ ".cs")

variable {name : String}

theorem IsClassName.namesEntry (isName : IsClassName name) : NamesEntry (name ++ ".cs") := by
  have chars : (name ++ ".cs").toList = name.toList ++ ['.', 'c', 's'] := by simp
  have ends : ∀ text, name ++ ".cs" = text → text.toList.getLast? = some 's' := by
    rintro _ rfl
    simp [chars]
  refine ⟨fun slash => ?_, fun same => absurd (ends _ same) (by decide),
    fun same => absurd (ends _ same) (by decide), fun same => absurd (ends _ same) (by decide)⟩
  rw [chars, List.mem_append] at slash
  obtain slash | slash := slash
  · exact absurd (isName _ slash) (by decide)
  · exact absurd slash (by decide)

theorem classFile_not_device (name : String) :
    name ++ ".cs" ∉ FileTree.standardDevices.map (·.1) := by
  intro member
  have dotless : ∀ device ∈ FileTree.standardDevices.map (·.1), '.' ∉ device.toList := by decide
  exact dotless _ member (by simp)

end Names

/-! ### Files of classes -/

section Files

variable {t t' : FileTree} {directory name text : String}

/-- The file of a class that is written holds what was written, and those of other classes hold what
they held. -/
theorem FileTree.writeText_classFile (inPlace : t.DevicesInPlace) (isName : IsClassName name)
    (written : t.writeText (classFile directory name) text = .ok t') :
    t'.DevicesInPlace ∧ t'.readText (classFile directory name) = .ok text ∧
      ∀ other former, IsClassName other → other ≠ name →
        t.readText (classFile directory other) = .ok former →
        t'.readText (classFile directory other) = .ok former := by
  obtain ⟨way, found, file, wrote⟩ := writeText_wroteAt written
  obtain ⟨around, -, rfl⟩ := wayTo_joinPath isName.namesEntry found
  refine ⟨inPlace.wroteAt wrote, wrote.readText found file fun device there => ?_,
    fun other former otherName apart read => wrote.readText_other (fun same => ?_) read⟩
  · exact inPlace.plain (classFile_not_device name) there
  · obtain ⟨around', -, same⟩ := wayTo_joinPath otherName.namesEntry same
    have last : name ++ ".cs" = other ++ ".cs" := by
      simpa using congrArg List.getLast? same
    exact apart (String.append_left_inj ".cs" |>.mp last).symm

end Files

/-! ### Parts of a build -/

/-- The place of the graphs of a project. -/
def ScriptSettings.graphs (settings : ScriptSettings) (project : String) : FileAssets :=
  ⟨joinPath project settings.assetDirectory, settings.graphExtension⟩

namespace Program

section Parts

variable {m : Type → Type} [Monad m] [MonadFiles m]

/-- The part of a build in which the graphs of a project are listed and compiled. -/
def reportOn [MonadCommands m] (project : String) (database : TypeDatabase)
    (settings : ScriptSettings) : Program m BatchReport := do
  let assets := settings.graphs project
  let paths ← orFail "Failed to list graph assets" (fun e => e.message :: e.reasons)
    (assets.list (m := m))
  let tools := GraphTools.plain database.toOracle
  let (built, _) ← (tools.buildAllWith (backend settings) assets.store settings.translationOptions
    none paths : m _)
  return built

/-- The part of a build that writes the code of the graphs, if there is a directory for it. -/
def writeOutputs (built : BatchReport) : Option String → Program m Unit
  | none => return ()
  | some directory => do
    orFail s!"Failed to create {directory}" FileFault.reasons
      (MonadFiles.createDirectories directory)
    writeCompiled directory built.compiled

/-- All that a build does with files. -/
def buildFiles [MonadCommands m] (project : String) (output : Option String)
    (database : TypeDatabase) (settings : ScriptSettings) : Program m BatchReport := do
  let built ← reportOn project database settings
  writeOutputs built output
  return built

/-- How a build ends. -/
def conclusion (json : Bool) (built : BatchReport) : Except ProgramFailure ProgramResult :=
  let printed := if json then (report built).pretty ++ "\n"
    else s!"{built.compiled.length} compiled, {built.failed.length} failed\n"
  let complaints := if json then "" else failureLines built.failed
  if built.success then .ok ⟨0, printed, complaints⟩
  else .error ⟨s!"{built.failed.length} graph(s) failed", [], printed, complaints⟩

theorem buildAll_eq [LawfulMonad m] [MonadCommands m] (project : String) (output : Option String)
    (json : Bool) (database : TypeDatabase) (settings : ScriptSettings) :
    buildAll (m := m) project output json database settings =
      buildFiles project output database settings >>= fun built =>
        .mk (pure (conclusion json built)) := by
  have ends : ∀ (success : Bool) (result : ProgramResult) (failure : ProgramFailure),
      (.mk (pure (if success then .ok result else .error failure)) : Program m ProgramResult) =
        if success then pure result else throw failure := by
    intro success result failure
    cases success <;> rfl
  unfold buildAll buildFiles reportOn conclusion
  cases output with
  | none => simp [ends, writeOutputs, ScriptSettings.graphs, bind_assoc]
  | some directory => simp [ends, writeOutputs, ScriptSettings.graphs, bind_assoc]

end Parts

end Program

/-! ### What is compiled -/

/-- What a graph is translated to in a build, if no runs are recorded. -/
def GraphTools.preparedTranslation (tools : GraphTools) (options : TranslationOptions) (g : Graph) :
    Translation :=
  TranslationEnv.translate ⟨(tools.prepare g g.freshSupply).2.1, tools.oracle,
    { options with className := none }, tools.translators⟩ none

/-- A compiled graph has the code of a graph and a class that is named after it. -/
structure CompiledGraph.ComesOf (compiled : CompiledGraph) (tools : GraphTools)
    (options : TranslationOptions) (g : Graph) : Prop where
  named : compiled.className = sanitize g.name
  coded : compiled.source = (tools.preparedTranslation options g).unit.source.text

namespace GraphTools

open Relation

variable {tools : GraphTools} {ask : BackendIn (StateM FileTree)} {R : FileTree → FileTree → Prop}
  (untraced : ∀ typeId t, tools.translators.get? typeId = some t → t.Untraced)
  (asks : ask.StepsBy R)

include untraced asks

/-- Without a record a graph is compiled to what it is translated to, there is no record afterwards,
and nothing but the compiler changes files. -/
theorem compileWith_run (options : TranslationOptions) (g : Graph) (t : FileTree) :
    let translation := TranslationEnv.translate ⟨g, tools.oracle, options, tools.translators⟩ none
    ∃ result t', (tools.compileWith ask g options none).run t = ((result, none), t') ∧
      result.unit = translation.unit ∧ result.source = translation.unit.source ∧
        ReflTransGen R t t' := by
  intro translation
  have unrecorded : translation.trace = none := by
    obtain ⟨-, -, still⟩ := @TranslationEnv.translate_congr
      ⟨g, tools.oracle, options, tools.translators⟩ untraced none none rfl
    exact Option.not_isSome_iff_eq_none.mp (by simp [translation, still])
  simp only [compileWith, ite_self]
  rw [show TranslationEnv.translate _ none = translation from rfl, unrecorded, ite_self]
  cases translation.errors.isEmpty with
  | true => exact ⟨_, _, rfl, rfl, rfl, asks _ _ t⟩
  | false => exact ⟨_, _, rfl, rfl, rfl, .refl⟩

theorem buildGraphWith_run (options : TranslationOptions) (path : String) (g : Graph)
    (t : FileTree) :
    ∃ outcome t', (tools.buildGraphWith ask { options with className := none } none path g).run t =
        ((outcome, none), t') ∧ ReflTransGen R t t' ∧ ∀ compiled, outcome = .compiled compiled →
        compiled.path = path ∧ compiled.ComesOf tools options g := by
  obtain ⟨result, t', ran, unit, source, reaches⟩ := compileWith_run untraced asks
    { options with className := none } (tools.prepare g g.freshSupply).2.1 t
  refine ⟨result.outcome path (tools.prepare g g.freshSupply).1, t', ?_, reaches, ?_⟩
  · simp only [buildGraphWith]
    rw [StateT.run_bind, ran]
    rfl
  · intro compiled made
    obtain ⟨-, -, rfl⟩ := (CompilationResult.outcome_compiled_iff _ _ _ compiled).mp made
    rw [unit, source]
    exact ⟨rfl, congrArg sanitize (tools.prepare_name g g.freshSupply), rfl⟩

/-- What a build makes of a path is compiled from the graph that is there at that time. -/
theorem buildPathWith_run (assets : FileAssets) (options : TranslationOptions) (path : String)
    (t : FileTree) :
    ∃ outcome t', (tools.buildPathWith ask assets.store { options with className := none } none
        path).run t = ((outcome, none), t') ∧ ReflTransGen R t t' ∧
      ∀ compiled, outcome = .compiled compiled → ∃ g, assets.graphIn t compiled.path = .ok g ∧
        compiled.ComesOf tools options g := by
  have loaded : (assets.store.load path : StateM FileTree _).run t =
      pure (assets.graphIn t path, t) := assets.load_run t path
  rw [buildPathWith, StateT.run_bind, loaded, pure_bind]
  cases found : assets.graphIn t path with
  | error e =>
    refine ⟨.failed ⟨path, [e.message]⟩, t, rfl, .refl, fun _ made => ?_⟩
    cases made
  | ok g =>
    obtain ⟨outcome, t', ran, reaches, entry⟩ := buildGraphWith_run untraced asks options path g t
    refine ⟨outcome, t', ran, reaches, fun compiled made => ?_⟩
    obtain ⟨rfl, comes⟩ := entry compiled made
    exact ⟨g, found, comes⟩

/-- Each graph that a build has compiled comes from its file as runs of the compiler on other graphs
have left that. -/
theorem buildPathsWith_run (assets : FileAssets) (options : TranslationOptions)
    (paths : List String) (t : FileTree) :
    ∃ outcomes t', (tools.buildPathsWith ask assets.store { options with className := none } none
        paths).run t = ((outcomes, none), t') ∧ ReflTransGen R t t' ∧
      ∀ compiled, .compiled compiled ∈ outcomes → ∃ found, ReflTransGen R t found ∧
        ∃ g, assets.graphIn found compiled.path = .ok g ∧ compiled.ComesOf tools options g := by
  induction paths generalizing t with
  | nil => exact ⟨[], t, rfl, .refl, fun _ member => nomatch member⟩
  | cons path rest ih =>
    obtain ⟨outcome, between, ran, first, entry⟩ :=
      buildPathWith_run untraced asks assets options path t
    obtain ⟨outcomes, t', others, behind, entries⟩ := ih between
    refine ⟨outcome :: outcomes, t', ?_, first.trans behind, fun compiled member => ?_⟩
    · rw [buildPathsWith, StateT.run_bind, ran]
      show (StateT.run (_ >>= _) between) = _
      rw [StateT.run_bind, others]
      rfl
    · obtain made | member := List.mem_cons.mp member
      · exact ⟨t, .refl, entry compiled made.symm⟩
      · obtain ⟨found, reaches, comes⟩ := entries compiled member
        exact ⟨found, first.trans reaches, comes⟩

end GraphTools

theorem BatchReport.mem_compiled_ofOutcomes {outcomes : List BatchOutcome} {g : CompiledGraph} :
    g ∈ (BatchReport.ofOutcomes outcomes).compiled ↔ .compiled g ∈ outcomes := by
  rw [BatchReport.ofOutcomes, List.mem_filterMap]
  constructor
  · rintro ⟨outcome, member, same⟩
    cases outcome with
    | compiled graph => exact Option.some.inj same ▸ member
    | failed graph => cases same
  · exact fun member => ⟨_, member, rfl⟩

/-! ### Files that are written in turn -/

/-- The last of some compiled graphs whose class has a name. -/
def lastOfClass? (compiled : List CompiledGraph) (name : String) : Option CompiledGraph :=
  compiled.reverse.find? (·.className = name)

section Last

variable {compiled : List CompiledGraph} {g last : CompiledGraph} {name : String}

theorem lastOfClass?_cons (g : CompiledGraph) (rest : List CompiledGraph) (name : String) :
    lastOfClass? (g :: rest) name =
      (lastOfClass? rest name).or (if g.className = name then some g else none) := by
  rw [lastOfClass?, List.reverse_cons, List.find?_append, List.find?_singleton]
  simp [lastOfClass?]

theorem lastOfClass?_some (found : lastOfClass? compiled name = some last) :
    last ∈ compiled ∧ last.className = name :=
  ⟨List.mem_reverse.mp (List.mem_of_find?_eq_some found), by simpa using List.find?_some found⟩

theorem exists_lastOfClass (member : g ∈ compiled) :
    ∃ last, lastOfClass? compiled g.className = some last := by
  refine Option.isSome_iff_exists.mp (List.find?_isSome.mpr ?_)
  exact ⟨g, List.mem_reverse.mpr member, by simp⟩

/-- Every graph is like the last one of its class exactly if all graphs of a class are alike. -/
theorem lastOfClass_sources_iff :
    (∀ g ∈ compiled, (lastOfClass? compiled g.className).map (·.source) = some g.source) ↔
      ∀ g ∈ compiled, ∀ g' ∈ compiled, g.className = g'.className → g.source = g'.source := by
  constructor
  · intro last g member g' member' same
    have source := last g' member'
    rw [← same, last g member] at source
    exact Option.some.inj source
  · intro alike g member
    obtain ⟨last, found⟩ := exists_lastOfClass member
    obtain ⟨among, same⟩ := lastOfClass?_some found
    rw [found, Option.map_some, alike last among g member same]

end Last

namespace Program

variable {t t' : FileTree} {directory : String} {compiled : List CompiledGraph}

/-- Once code is written, the file of a class holds that of the last graph of the class; the file of a
class without a graph holds what it held. -/
theorem writeCompiled_reads (inPlace : t.DevicesInPlace)
    (named : ∀ g ∈ compiled, IsClassName g.className)
    (run : (writeCompiled directory compiled).on t = (.ok (), t')) {name text : String}
    (isName : IsClassName name)
    (source : match lastOfClass? compiled name with
      | some last => last.source = text
      | none => t.readText (classFile directory name) = .ok text) :
    t'.readText (classFile directory name) = .ok text := by
  induction compiled generalizing t with
  | nil =>
    cases run
    exact source
  | cons g rest ih =>
    obtain ⟨own, others⟩ := List.forall_mem_cons.mp named
    rw [writeCompiled] at run
    obtain ⟨_, between, written, run⟩ := on_bind_eq_ok.mp run
    have written := FileTree.writeText_of_run (on_orFail_eq_ok.mp written)
    obtain ⟨inPlace, now, kept⟩ := FileTree.writeText_classFile inPlace own written
    refine ih inPlace others run ?_
    rw [lastOfClass?_cons] at source
    cases last : lastOfClass? rest name with
    | some last =>
      rw [last] at source
      exact source
    | none =>
      rw [last, Option.none_or] at source
      by_cases same : g.className = name
      · rw [if_pos same] at source
        rw [← same, ← source]
        exact now
      · rw [if_neg same] at source
        exact kept name text isName (Ne.symm same) source

section Build

open Relation

variable [MonadCommands (StateM FileTree)] {project : String} {database : TypeDatabase}
  {settings : ScriptSettings} {built : BatchReport}

theorem reportOn_eq_ok (run : (reportOn project database settings).on t = (.ok built, t')) :
    ReflTransGen settings.CompilerRun t t' ∧ ∀ g ∈ built.compiled, ∃ found,
      ReflTransGen settings.CompilerRun t found ∧ ∃ graph,
        (settings.graphs project).graphIn found g.path = .ok graph ∧
          g.ComesOf (.plain database.toOracle) settings.translationOptions graph := by
  obtain ⟨paths, start, listed, reading⟩ := on_bind_eq_ok.mp run
  obtain ⟨-, rfl⟩ := Prod.mk.inj
    ((FileAssets.list_run _ t).symm.trans (on_orFail_eq_ok.mp listed))
  have untraced : ∀ typeId t,
      (GraphTools.plain database.toOracle).translators.get? typeId = some t → t.Untraced :=
    fun _ _ absent => nomatch absent
  obtain ⟨outcomes, after, ran, reaches, entries⟩ := GraphTools.buildPathsWith_run untraced
    (backend_stepsBy settings) (settings.graphs project) settings.translationOptions paths t
  rw [on_bind, on_lift, GraphTools.buildAllWith, StateT.run_bind, ran] at reading
  cases reading
  refine ⟨reaches, fun g member => entries g ?_⟩
  exact BatchReport.mem_compiled_ofOutcomes.mp member

/-- Runs of the compiler leave the devices in place if each of them does. -/
theorem runs_inPlace
    (keeps : ∀ before behind, settings.CompilerRun before behind → before.DevicesInPlace →
      behind.DevicesInPlace)
    (inPlace : t.DevicesInPlace) (runs : ReflTransGen settings.CompilerRun t t') :
    t'.DevicesInPlace := by
  induction runs with
  | refl => exact inPlace
  | tail _ run ih => exact keeps _ _ run ih

/-- The files that a build has written, whatever the compiler does when it is run, as long as that
leaves the devices in place. The code of each graph in the report is that of the graph that was
stored at its path when it was loaded, its class is named after that graph, and the file of the
class holds the code of the last graph of that class. So each file holds the code of its graph
exactly if graphs that have one class have the same code. -/
theorem buildFiles_outputs {after : FileTree} (inPlace : t.DevicesInPlace)
    (project directory : String) (database : TypeDatabase) (settings : ScriptSettings)
    (keeps : ∀ before behind, settings.CompilerRun before behind → before.DevicesInPlace →
      behind.DevicesInPlace)
    (run : (buildFiles project (some directory) database settings).on t = (.ok built, after)) :
    (∀ json, (buildAll project (some directory) json database settings).on t =
      (conclusion json built, after)) ∧
    (∀ g ∈ built.compiled, ∃ found, ReflTransGen settings.CompilerRun t found ∧ ∃ graph,
      (settings.graphs project).graphIn found g.path = .ok graph ∧
        g.ComesOf (.plain database.toOracle) settings.translationOptions graph) ∧
    (∀ g ∈ built.compiled, ∃ last, lastOfClass? built.compiled g.className = some last ∧
      after.readText (classFile directory g.className) = .ok last.source) ∧
    ((∀ g ∈ built.compiled, after.readText (classFile directory g.className) = .ok g.source) ↔
      ∀ g ∈ built.compiled, ∀ g' ∈ built.compiled,
        g.className = g'.className → g.source = g'.source) := by
  have ends : ∀ json, (buildAll project (some directory) json database settings).on t =
      (conclusion json built, after) := by
    intro json
    rw [buildAll_eq, on_bind, run]
    rfl
  obtain ⟨_, left, reported, writing⟩ := on_bind_eq_ok.mp run
  obtain ⟨_, _, writes, returns⟩ := on_bind_eq_ok.mp writing
  cases returns
  obtain ⟨reaches, named⟩ := reportOn_eq_ok reported
  obtain ⟨_, around, makes, writes⟩ := on_bind_eq_ok.mp writes
  have classes : ∀ g ∈ built.compiled, IsClassName g.className := by
    intro g member
    obtain ⟨_, -, graph, -, comes⟩ := named g member
    exact comes.named ▸ sanitize_isClassName graph.name
  have inPlace : around.DevicesInPlace := by
    have made : (left.createDirectories directory).1 = around :=
      congrArg Prod.snd (on_orFail_eq_ok.mp makes)
    have kept := runs_inPlace keeps inPlace reaches
    exact made ▸ kept.createDirectories directory
  have reads : ∀ g ∈ built.compiled, ∃ last, lastOfClass? built.compiled g.className = some last ∧
      after.readText (classFile directory g.className) = .ok last.source := by
    intro g member
    obtain ⟨last, found⟩ := exists_lastOfClass member
    refine ⟨last, found, writeCompiled_reads inPlace classes writes (classes g member) ?_⟩
    rw [found]
  refine ⟨ends, named, reads, ?_⟩
  rw [← lastOfClass_sources_iff]
  refine forall₂_congr fun g member => ?_
  obtain ⟨last, found, read⟩ := reads g member
  rw [read, found, Option.map_some, Except.ok.injEq, Option.some.injEq]

end Build

/-! ### A project of two graphs -/

/-- The document of a graph without nodes, whose class has a base class. -/
def bareDocument (name base : String) : String :=
  "(version: 1, graph: (name: \"" ++ name ++ "\", stencil: (base_class: \"" ++ base ++
    "\", usings: []), nodes: \x7b\x7d, edges: \x7b\x7d))"

/-- A project of two graphs. -/
def twoGraphs (text text' : String) : FileTree :=
  (FileTree.empty.withFile "scripts/a.ordoscript" text).withFile "scripts/b.ordoscript" text'

theorem twoGraphs_inPlace (text text' : String) : (twoGraphs text text').DevicesInPlace :=
  (FileTree.DevicesInPlace.empty.withFile _ text).withFile _ text'

theorem pathsIn_usual
    (files : t.filesBelow "./scripts" = .ok ["a.ordoscript", "b.ordoscript"]) :
    (ScriptSettings.standard.graphs ".").pathsIn t = .ok ["a.ordoscript", "b.ordoscript"] := by
  have root : (ScriptSettings.standard.graphs ".").root = "./scripts" := by decide
  have graphs : ["a.ordoscript", "b.ordoscript"].filter
      (ScriptSettings.standard.graphs ".").isGraphFile = ["a.ordoscript", "b.ordoscript"] := by
    decide +kernel
  rw [FileAssets.pathsIn, root, files]
  exact congrArg Except.ok ((congrArg sortTexts graphs).trans (List.mergeSort_of_pairwise (by decide)))

section Build

variable [MonadCommands (StateM FileTree)]

/-- What is reported of the two graphs, and the files behind that. -/
def compiledPair (settings : ScriptSettings) (t : FileTree) : BatchReport × FileTree :=
  let ran := ((GraphTools.plain TypeDatabase.standard.toOracle).buildAllWith
    (backend settings) (settings.graphs ".").store settings.translationOptions none
    ["a.ordoscript", "b.ordoscript"] : StateM FileTree _).run t
  (ran.1.1, ran.2)

theorem buildFiles_pair {settings : ScriptSettings} {built : BatchReport} {output : Option String}
    (listed : (settings.graphs ".").pathsIn t = .ok ["a.ordoscript", "b.ordoscript"])
    (ends : (compiledPair settings t).1 = built ∧
      ((writeOutputs built output).on (compiledPair settings t).2).1 = .ok ()) :
    (buildFiles "." output .standard settings).on t =
      (.ok built, ((writeOutputs built output).on (compiledPair settings t).2).2) := by
  obtain ⟨report, written⟩ := ends
  have reported : (reportOn "." .standard settings).on t =
      (.ok built, (compiledPair settings t).2) := by
    refine on_bind_eq_ok.mpr ⟨["a.ordoscript", "b.ordoscript"], t, on_orFail_eq_ok.mpr ?_, ?_⟩
    · exact (FileAssets.list_run _ t).trans (by rw [listed]; rfl)
    · rw [on_bind, on_lift, ← report]
      unfold compiledPair
      generalize StateT.run _ t = ran
      rfl
  refine on_bind_eq_ok.mpr ⟨built, _, reported, ?_⟩
  exact on_bind_eq_ok.mpr ⟨(), _, on_eq_ok written, rfl⟩

end Build

/-- Programs that leave what they read in a file of their name and have nothing to say. -/
abbrev hoarding : MonadCommands (StateM FileTree) where
  run program _ input := do
    modify (·.withFile program input)
    return .ok ""

/-- A project whose graphs have classes of different names. -/
def apart : FileTree := twoGraphs (bareDocument "Door" "") (bareDocument "Door 2" "Lock")

/-- Its report. -/
def apartReport : BatchReport where
  compiled := [⟨"a.ordoscript", "Door", "public class Door\n\x7b\n\x7d\n"⟩,
    ⟨"b.ordoscript", "Door2", "public class Door2 : Lock\n\x7b\n\x7d\n"⟩]
  failed := []

/-- The usual settings with a compiler. -/
def checkedSettings : ScriptSettings :=
  { ScriptSettings.standard with compiler := some ⟨"checker", ["-"]⟩ }

theorem buildFiles_outputs_apart :
    letI := hoarding
    ∃ after, apart.DevicesInPlace ∧
      (∀ before behind, checkedSettings.CompilerRun before behind → before.DevicesInPlace →
        behind.DevicesInPlace) ∧
      (buildFiles "." (some "out") .standard checkedSettings).on apart = (.ok apartReport, after) ∧
      ∀ g ∈ apartReport.compiled, after.readText (classFile "out" g.className) = .ok g.source := by
  let _ := hoarding
  have inPlace : apart.DevicesInPlace := twoGraphs_inPlace _ _
  have keeps : ∀ before behind, checkedSettings.CompilerRun before behind → before.DevicesInPlace →
      behind.DevicesInPlace := by
    rintro before _ ⟨compiler, -, code, rfl⟩ kept
    exact kept.withFile compiler.program code
  have places : checkedSettings.graphs "." = ScriptSettings.standard.graphs "." := rfl
  have listed := pathsIn_usual (t := apart) (by decide +kernel)
  rw [← places] at listed
  have ends : (compiledPair checkedSettings apart).1 = apartReport ∧
      ((writeOutputs apartReport (some "out")).on (compiledPair checkedSettings apart).2).1 =
        .ok () := by decide +kernel
  have run := buildFiles_pair listed ends
  refine ⟨_, inPlace, keeps, run, ?_⟩
  obtain ⟨-, -, -, kept⟩ :=
    buildFiles_outputs inPlace "." "out" .standard checkedSettings keeps run
  exact kept.mpr (by decide)

/-- A project whose graphs have one name. -/
def namesakes : FileTree := twoGraphs (bareDocument "Door" "") (bareDocument "Door" "Lock")

/-- Its report. -/
def namesakesReport : BatchReport where
  compiled := [⟨"a.ordoscript", "Door", "public class Door\n\x7b\n\x7d\n"⟩,
    ⟨"b.ordoscript", "Door", "public class Door : Lock\n\x7b\n\x7d\n"⟩]
  failed := []

/-- The code of the first graph is lost: its file holds that of the second. -/
theorem buildFiles_overwrites :
    letI := hoarding
    ∃ after, (buildFiles "." (some "out") .standard .standard).on namesakes =
        (.ok namesakesReport, after) ∧
      ¬ ∀ g ∈ namesakesReport.compiled,
        after.readText (classFile "out" g.className) = .ok g.source := by
  let _ := hoarding
  have listed := pathsIn_usual (t := namesakes) (by decide +kernel)
  have ends : ((compiledPair .standard namesakes).1 = namesakesReport ∧
      ((writeOutputs namesakesReport (some "out")).on (compiledPair .standard namesakes).2).1 =
        .ok ()) ∧
      ¬ ∀ g ∈ namesakesReport.compiled,
        ((writeOutputs namesakesReport (some "out")).on
          (compiledPair .standard namesakes).2).2.readText (classFile "out" g.className) =
            .ok g.source := by decide +kernel
  exact ⟨_, buildFiles_pair listed ends.1, ends.2⟩

end Program

end NodeScript
