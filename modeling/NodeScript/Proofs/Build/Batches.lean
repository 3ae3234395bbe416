import NodeScript.Build.Batch
import NodeScript.Proofs.Translation.Tracing
import NodeScript.Typing.TypeDatabase

/-!
Builds of many graphs. What comes of a path depends on what is loaded there, and on nothing that was
built before it: neither a graph that is broken nor the record of traced runs, which goes from one
graph to the next, carries anything over.
-/

namespace NodeScript

/-- The path that an outcome is of. -/
def BatchOutcome.path : BatchOutcome → String
  | .compiled graph => graph.path
  | .failed graph => graph.path

namespace BatchReport

/-- The entries of one report behind those of another. -/
def append (r r' : BatchReport) : BatchReport :=
  ⟨r.compiled ++ r'.compiled, r.failed ++ r'.failed⟩

theorem ofOutcomes_append (outcomes more : List BatchOutcome) :
    ofOutcomes (outcomes ++ more) = (ofOutcomes outcomes).append (ofOutcomes more) := by
  rw [append, ofOutcomes, List.filterMap_append, List.filterMap_append]
  rfl

/-- Every outcome is an entry, either of those that were compiled or of those that were not. -/
theorem paths_ofOutcomes (outcomes : List BatchOutcome) :
    ((ofOutcomes outcomes).compiled.map (·.path) ++
      (ofOutcomes outcomes).failed.map (·.path)).Perm (outcomes.map BatchOutcome.path) := by
  induction outcomes with
  | nil => exact .nil
  | cons outcome rest ih =>
    cases outcome with
    | compiled graph => exact ih.cons graph.path
    | failed graph => exact List.perm_middle.trans (ih.cons graph.path)

end BatchReport

namespace CompilationResult

variable (r : CompilationResult) (path : String) (unprepared : List CompilerError)

theorem outcome_path : (r.outcome path unprepared).path = path := by
  rw [outcome]
  split
  · rfl
  · rfl

theorem outcome_compiled_iff (compiled : CompiledGraph) :
    r.outcome path unprepared = .compiled compiled ↔ unprepared = [] ∧ r.errors = [] ∧
      compiled = ⟨path, r.unit.classDecl.name, r.source.text⟩ := by
  rw [outcome]
  constructor
  · intro made
    split at made
    · rename_i clean
      obtain ⟨prepared, rest⟩ := List.append_eq_nil_iff.1 (List.isEmpty_iff.1 clean)
      cases made
      exact ⟨prepared, rest, rfl⟩
    · cases made
  · rintro ⟨rfl, rest, rfl⟩
    rw [rest]
    rfl

end CompilationResult

namespace ScriptCompiler

variable {c : ScriptCompiler} {options : TranslationOptions} {record record' : Option TraceRecord}

/-- A compiler whose extensions have nothing to do with the record of traced runs. -/
def Untraced (c : ScriptCompiler) : Prop :=
  ∀ typeId t, c.translators.get? typeId = some t → t.Untraced

/-- The translation of a graph in a build that is traced or not, with nothing recorded before. -/
def translationOf (c : ScriptCompiler) (options : TranslationOptions) (traced : Bool) (g : Graph) :
    Translation :=
  TranslationEnv.translate ⟨g, c.oracle, { options with className := none }, c.translators⟩
    (if options.trace && traced then some .empty else none)

/-- What comes of a path by itself, by what is loaded there. -/
def entryOf (c : ScriptCompiler) (options : TranslationOptions) (traced : Bool) (path : String) :
    Except AssetError Graph → BatchOutcome
  | .error e => .failed ⟨path, [e.message]⟩
  | .ok g => (c.buildGraph { options with className := none }
      (if traced then some .empty else none) path g).1

/-- The graph is prepared and translated without errors, and the compiler reports nothing. -/
structure Accepts (c : ScriptCompiler) (options : TranslationOptions) (traced : Bool) (g : Graph) :
    Prop where
  prepared : (c.prepare g g.freshSupply).1 = []
  translated : (c.translationOf options traced (c.prepare g g.freshSupply).2.1).errors = []
  compiled :
    let unit := (c.translationOf options traced (c.prepare g g.freshSupply).2.1).unit
    c.backend unit.classDecl.name unit.source.text = []

/-- What a graph is compiled to does not depend on what is recorded, and there is a record afterwards
if there was one before. -/
theorem compile_congr (untraced : c.Untraced) (present : record.isSome = record'.isSome) (g : Graph)
    (options : TranslationOptions) :
    (c.compile g options record).1 = (c.compile g options record').1 ∧
      (c.compile g options record).2.isSome = record.isSome := by
  let env : TranslationEnv := ⟨g, c.oracle, options, c.translators⟩
  have given : (if options.trace then record else none).isSome =
      (if options.trace then record' else none).isSome := by
    split
    · exact present
    · rfl
  have same := @TranslationEnv.translate_congr env untraced _ _ given
  obtain ⟨unit, errors, still⟩ := same
  rw [compile_eq, compile_eq]
  dsimp only
  rw [unit, errors]
  refine ⟨rfl, ?_⟩
  split
  · rename_i traced
    rw [if_pos traced] at still
    exact still
  · rfl

theorem buildGraph_eq (c : ScriptCompiler) (options : TranslationOptions)
    (record : Option TraceRecord) (path : String) (g : Graph) :
    c.buildGraph options record path g =
      let prepared := c.prepare g g.freshSupply
      let compiled := c.compile prepared.2.1 options record
      (compiled.1.outcome path prepared.1, compiled.2) := by
  simp only [buildGraph, GraphTools.buildGraphWith, compileWith_within]
  rfl

theorem buildGraph_congr (untraced : c.Untraced) (present : record.isSome = record'.isSome)
    (options : TranslationOptions) (path : String) (g : Graph) :
    (c.buildGraph options record path g).1 = (c.buildGraph options record' path g).1 ∧
      (c.buildGraph options record path g).2.isSome = record.isSome := by
  obtain ⟨same, still⟩ := compile_congr untraced present (c.prepare g g.freshSupply).2.1 options
  rw [buildGraph_eq, buildGraph_eq]
  dsimp only
  rw [same]
  exact ⟨rfl, still⟩

/-- What comes of a path in a build, with the record behind it. -/
def step (c : ScriptCompiler) (options : TranslationOptions) (record : Option TraceRecord)
    (path : String) : Except AssetError Graph → BatchOutcome × Option TraceRecord
  | .error e => (.failed ⟨path, [e.message]⟩, record)
  | .ok g => c.buildGraph { options with className := none } record path g

theorem step_spec (untraced : c.Untraced) (options : TranslationOptions)
    (record : Option TraceRecord) (path : String) (loaded : Except AssetError Graph) :
    (c.step options record path loaded).1 = c.entryOf options record.isSome path loaded ∧
      (c.step options record path loaded).2.isSome = record.isSome := by
  cases loaded with
  | error e => exact ⟨rfl, rfl⟩
  | ok g =>
    have present : record.isSome =
        (if record.isSome then some TraceRecord.empty else none).isSome := by
      cases record <;> rfl
    exact buildGraph_congr untraced present _ path g

theorem entryOf_path (c : ScriptCompiler) (options : TranslationOptions) (traced : Bool)
    (path : String) (loaded : Except AssetError Graph) :
    (c.entryOf options traced path loaded).path = path := by
  cases loaded with
  | error e => rfl
  | ok g => exact CompilationResult.outcome_path _ path _

theorem compile_errors (c : ScriptCompiler) (g : Graph) (options : TranslationOptions)
    (traced : Bool) :
    let result := (c.compile g { options with className := none }
      (if traced then some .empty else none)).1
    let translation := c.translationOf options traced g
    result.unit = translation.unit ∧ result.source = translation.unit.source ∧
      (result.errors = [] ↔ translation.errors = [] ∧
        c.backend translation.unit.classDecl.name translation.unit.source.text = []) := by
  have record : (if options.trace then (if traced then some TraceRecord.empty else none) else none) =
      if options.trace && traced then some TraceRecord.empty else none := by
    cases options.trace <;> rfl
  intro result translation
  have made : TranslationEnv.translate
      ⟨g, c.oracle, { options with className := none }, c.translators⟩
      (if options.trace then (if traced then some .empty else none) else none) = translation := by
    rw [record]
    rfl
  have result_eq : result = ⟨translation.unit, translation.unit.source, translation.errors ++
      (if translation.errors.isEmpty then
        c.backend translation.unit.classDecl.name translation.unit.source.text
      else []).map (GraphTools.locate translation.unit.source)⟩ := by
    show (c.compile g _ _).1 = _
    rw [compile_eq]
    dsimp only
    rw [made]
  rw [result_eq]
  refine ⟨rfl, rfl, ?_⟩
  cases translation.errors with
  | nil => simp
  | cons e rest => simp

/-- A path is compiled exactly if its graph is loaded and nothing is wrong with it from there on. -/
theorem entryOf_compiled_iff (c : ScriptCompiler) (options : TranslationOptions) (traced : Bool)
    (path : String) (loaded : Except AssetError Graph) (compiled : CompiledGraph) :
    c.entryOf options traced path loaded = .compiled compiled ↔
      ∃ g, loaded = .ok g ∧ c.Accepts options traced g ∧
        let unit := (c.translationOf options traced (c.prepare g g.freshSupply).2.1).unit
        compiled = ⟨path, unit.classDecl.name, unit.source.text⟩ := by
  cases loaded with
  | error e =>
    constructor
    · intro impossible
      cases impossible
    · rintro ⟨g, impossible, -⟩
      cases impossible
  | ok g =>
    obtain ⟨unit, source, errors⟩ :=
      c.compile_errors (c.prepare g g.freshSupply).2.1 options traced
    have entry : c.entryOf options traced path (.ok g) =
        (c.compile (c.prepare g g.freshSupply).2.1 { options with className := none }
          (if traced then some .empty else none)).1.outcome path (c.prepare g g.freshSupply).1 :=
      congrArg Prod.fst (c.buildGraph_eq _ _ path g)
    rw [entry, CompilationResult.outcome_compiled_iff, unit, source, errors]
    constructor
    · rintro ⟨prepared, ⟨translated, reported⟩, same⟩
      exact ⟨g, rfl, ⟨prepared, translated, reported⟩, same⟩
    · rintro ⟨g', loaded, ⟨prepared, translated, reported⟩, same⟩
      cases loaded
      exact ⟨prepared, ⟨translated, reported⟩, same⟩

section Monadic

variable {m : Type → Type} [Monad m] [LawfulMonad m]

theorem buildPath_eq (c : ScriptCompiler) (store : AssetStore m) (options : TranslationOptions)
    (record : Option TraceRecord) (path : String) :
    c.buildPathWith c.backend.within store { options with className := none } record path =
      c.step options record path <$> store.load path := by
  rw [map_eq_pure_bind, GraphTools.buildPathWith]
  refine bind_congr fun loaded => ?_
  cases loaded with
  | error e => rfl
  | ok g =>
    rw [step, buildGraph_eq]
    simp only [GraphTools.buildGraphWith, compileWith_within, pure_bind]

theorem buildPaths_outcomes (untraced : c.Untraced) (store : AssetStore m)
    (options : TranslationOptions) (record : Option TraceRecord) (paths : List String) :
    (·.1) <$> c.buildPathsWith c.backend.within store { options with className := none } record
        paths =
      paths.mapM fun path => c.entryOf options record.isSome path <$> store.load path := by
  induction paths generalizing record with
  | nil => rw [GraphTools.buildPathsWith, map_pure, List.mapM_nil]
  | cons path rest ih =>
    rw [GraphTools.buildPathsWith, buildPath_eq, List.mapM_cons, map_bind, bind_map_left,
      bind_map_left]
    refine bind_congr fun loaded => ?_
    obtain ⟨entry, still⟩ := step_spec untraced options record path loaded
    rw [← entry, ← still, ← ih, bind_map_left, map_bind]
    refine bind_congr fun behind => ?_
    exact map_pure _ _

theorem buildAll_report (untraced : c.Untraced) (store : AssetStore m)
    (options : TranslationOptions) (record : Option TraceRecord) (paths : List String) :
    (·.1) <$> c.buildAll store options record paths =
      BatchReport.ofOutcomes <$> paths.mapM fun path =>
        c.entryOf options record.isSome path <$> store.load path := by
  rw [← buildPaths_outcomes untraced, Functor.map_map, buildAll, GraphTools.buildAllWith, map_bind,
    map_eq_pure_bind]
  refine bind_congr fun behind => ?_
  exact map_pure _ _

/-- A build of many graphs keeps them apart. The report of `p ++ q` consists of the entries of `p` and
those of `q`, whatever was recorded for the one or the other; it is put together of one entry for
every occurrence of a path, which depends on what is loaded there; and the entry is one of a graph
that was compiled exactly if nothing was wrong with it. -/
theorem buildAll_isolates (untraced : c.Untraced) (store : AssetStore m)
    (options : TranslationOptions) (record other : Option TraceRecord)
    (present : other.isSome = record.isSome) (p q : List String) :
    ((·.1) <$> c.buildAll store options record (p ++ q) = do
      let (first, _) ← c.buildAll store options record p
      let (next, _) ← c.buildAll store options other q
      return first.append next) ∧
    (∀ paths, (·.1) <$> c.buildAll store options record paths =
      BatchReport.ofOutcomes <$> paths.mapM fun path =>
        c.entryOf options record.isSome path <$> store.load path) ∧
    (∀ outcomes, ((BatchReport.ofOutcomes outcomes).compiled.map (·.path) ++
      (BatchReport.ofOutcomes outcomes).failed.map (·.path)).Perm
        (outcomes.map BatchOutcome.path)) ∧
    ∀ traced path loaded, (c.entryOf options traced path loaded).path = path ∧
      ∀ compiled, c.entryOf options traced path loaded = .compiled compiled ↔
        ∃ g, loaded = .ok g ∧ c.Accepts options traced g ∧
          let unit := (c.translationOf options traced (c.prepare g g.freshSupply).2.1).unit
          compiled = ⟨path, unit.classDecl.name, unit.source.text⟩ := by
  refine ⟨?_, buildAll_report untraced store options record, BatchReport.paths_ofOutcomes,
    fun traced path loaded => ⟨c.entryOf_path options traced path loaded,
      c.entryOf_compiled_iff options traced path loaded⟩⟩
  have split : (do
      let (first, _) ← c.buildAll store options record p
      let (next, _) ← c.buildAll store options other q
      return first.append next) = (do
      let first ← (·.1) <$> c.buildAll store options record p
      let next ← (·.1) <$> c.buildAll store options other q
      return first.append next : m BatchReport) := by
    rw [bind_map_left]
    refine bind_congr fun _ => ?_
    rw [bind_map_left]
  rw [split, buildAll_report untraced, buildAll_report untraced, buildAll_report untraced, present,
    List.mapM_append, map_bind, bind_map_left]
  refine bind_congr fun outcomes => ?_
  rw [map_bind, bind_map_left]
  refine bind_congr fun more => ?_
  rw [map_pure, BatchReport.ofOutcomes_append]

end Monadic

theorem refusing_untraced (typeId : String) : (NodeTranslator.refusing typeId).Untraced := fun _ =>
  ⟨fun _ _ => .aside (fun _ => rfl) fun _ _ => rfl, fun _ _ _ => .aside (fun _ => rfl) fun _ _ => rfl⟩

/-- A compiler with one extension, whose nodes have no values. -/
def bookmarking : ScriptCompiler :=
  ⟨⟨TypeDatabase.standard.toOracle, ∅, .ofList [("Bookmark", .refusing "Bookmark")]⟩, .accepting⟩

theorem bookmarking_untraced : bookmarking.Untraced := by
  intro typeId t present
  obtain ⟨-, rfl⟩ : typeId = "Bookmark" ∧ t = .refusing "Bookmark" := by
    simpa using OrderedMap.mem_of_get?_ofList present
  exact refusing_untraced _

/-- A record in which a graph has a number already. -/
def usedRecord : TraceRecord := (TraceRecord.empty.register "Player" ⟨⟨7⟩⟩).2

def tracedOptions : TranslationOptions := { TranslationOptions.standard with trace := true }

theorem buildAll_isolates_namesakes :
    bookmarking.Untraced ∧ (some TraceRecord.empty).isSome = (some usedRecord).isSome ∧
      (·.1) <$> bookmarking.buildAll MemoryAssets.store tracedOptions (some usedRecord)
          (["a", "b"] ++ ["a"]) = do
        let (first, _) ← bookmarking.buildAll MemoryAssets.store tracedOptions (some usedRecord)
          ["a", "b"]
        let (next, _) ← bookmarking.buildAll MemoryAssets.store tracedOptions (some .empty) ["a"]
        return first.append next :=
  ⟨bookmarking_untraced, rfl, (buildAll_isolates bookmarking_untraced MemoryAssets.store tracedOptions
    (some usedRecord) (some .empty) rfl ["a", "b"] ["a"]).1⟩

end ScriptCompiler

end NodeScript
