import NodeScript.Proofs.Graph.Join
import NodeScript.Proofs.Translation.Assembly
import NodeScript.Typing.TypeDatabase

/-!
Functions that are translated by themselves. What is made of a function depends on the fields of the
class, and on nothing that is gathered for other functions; so the code of a graph is put together from
what is made of each function when all others are skipped.
-/

namespace NodeScript

open NodeScript.Graph (placed)

/-- What has been gathered, with further errors. -/
def TranslationContext.withErrors (c : TranslationContext) (errors : List CompilerError) :
    TranslationContext :=
  { c with errors := c.errors ++ errors }

/-- A part of the translation that, where nothing is traced, reads the fields only of what has been
gathered, and adds errors only. -/
def ReadsFieldsOnly {α : Type} (m : Translate α) : Prop :=
  ∀ s : TranslatorState, s.trace = none → (m.run s).2.trace = none ∧
    ∃ errors, ∀ c : TranslationContext, c.fields = s.context.fields →
      m.run { s with context := c } =
        ((m.run s).1, { (m.run s).2 with context := c.withErrors errors })

namespace ReadsFieldsOnly

variable {α β : Type}

theorem withErrors_nil (c : TranslationContext) : c.withErrors [] = c := by
  rw [TranslationContext.withErrors, List.append_nil]

theorem of_noErrors {m : Translate α}
    (quiet : ∀ s : TranslatorState, s.trace = none → (m.run s).2.trace = none ∧
      ∀ c : TranslationContext, c.fields = s.context.fields →
        m.run { s with context := c } = ((m.run s).1, { (m.run s).2 with context := c })) :
    ReadsFieldsOnly m := by
  intro s untraced
  obtain ⟨still, same⟩ := quiet s untraced
  refine ⟨still, [], fun c fields => ?_⟩
  rw [withErrors_nil, same c fields]

theorem bind {m : Translate α} {f : α → Translate β} (first : ReadsFieldsOnly m)
    (next : ∀ a, ReadsFieldsOnly (f a)) : ReadsFieldsOnly (m >>= f) := by
  intro s untraced
  obtain ⟨untraced', errors, run⟩ := first s untraced
  obtain ⟨untraced'', errors', run'⟩ := next (m.run s).1 (m.run s).2 untraced'
  have between : (m.run s).2.context = s.context.withErrors errors :=
    congrArg (fun r => r.2.context) (run s.context rfl)
  refine ⟨untraced'', errors ++ errors', fun c fields => ?_⟩
  have kept : (c.withErrors errors).fields = (m.run s).2.context.fields := by
    rw [between]
    exact fields
  rw [StateT.run_bind, run c fields]
  change (f (m.run s).1).run { (m.run s).2 with context := c.withErrors errors } = _
  rw [run' _ kept, TranslationContext.withErrors, TranslationContext.withErrors,
    TranslationContext.withErrors, List.append_assoc]
  rfl

theorem freeName_congr (s : TranslatorState) {c : TranslationContext}
    (fields : c.fields = s.context.fields) (stem : String) :
    TranslatorState.freeName { s with context := c } stem = s.freeName stem := by
  unfold TranslatorState.freeName TranslatorState.isTaken TranslationContext.hasField
  simp only [fields]

/-- No step of the translation of a function reads what was gathered for other functions. -/
theorem pervades (env : TranslationEnv) : Pervades env fun _ m => ReadsFieldsOnly m where
  pure a := of_noErrors fun s untraced => ⟨untraced, fun c _ => rfl⟩
  bind := bind
  reading each s := each s.bound s.closed s
  report e s untraced := ⟨untraced, [e], fun c _ => rfl⟩
  inBlock {body} readsFieldsOnly s untraced := by
    obtain ⟨untraced', errors, run⟩ := readsFieldsOnly s untraced
    refine ⟨untraced', errors, fun c fields => ?_⟩
    have block : ∀ s : TranslatorState, (inBlock body).run s = ((body.run s).1,
        { (body.run s).2 with
          bound := s.bound
          closed := (body.run s).2.closed ++
            (body.run s).2.bound.keys.filter fun key => !s.bound.contains key }) := fun _ => rfl
    rw [block, block, run c fields]
  bindOutput node output base := of_noErrors fun s untraced => by
    refine ⟨untraced, fun c fields => ?_⟩
    have binds : ∀ s : TranslatorState, (bindOutput node output base).run s =
        (s.freeName (localStem base),
          { s with
            names := s.freeName (localStem base) :: s.names
            bound := s.bound.insert ⟨node, output⟩ (s.freeName (localStem base)) }) := fun _ => rfl
    rw [binds, binds, freeName_congr s fields]
  release key := of_noErrors fun s untraced => ⟨untraced, fun c _ => rfl⟩
  takeName name := of_noErrors fun s untraced => ⟨untraced, fun c _ => rfl⟩
  reset := of_noErrors fun s untraced => ⟨untraced, fun c _ => rfl⟩
  hook node := of_noErrors fun s untraced => by
    obtain ⟨context, trace, bound, closed, names⟩ := s
    subst untraced
    exact ⟨rfl, fun c _ => rfl⟩

end ReadsFieldsOnly

/-- What is made of a function by itself: its method, and the errors that are reported on the way. -/
structure FunctionShare extends FunctionPart where
  errors : List CompilerError

namespace FunctionShare

/-- Whether a share has the signature of the first one of its name. -/
def joins (shares : List FunctionShare) (p : FunctionShare) : Bool :=
  (shares.find? fun first => first.method.name = p.method.name).all
    (·.method.sameSignature p.method)

/-- The parts that go into methods, in order. -/
def joined (shares : List FunctionShare) : List FunctionPart :=
  (shares.filter (joins shares)).map (·.toFunctionPart)

/-- What the shares contribute to the errors: their own ones, and one more for each that does not go
into a method. -/
def allErrors (shares : List FunctionShare) : List CompilerError :=
  shares.flatMap fun p =>
    p.errors ++ if joins shares p then [] else [TranslationContext.redeclared p.method]

section Joining

variable {shares : List FunctionShare} {p : FunctionShare} {name : String}

theorem sameSignature_self (m : MethodDecl) : m.sameSignature m = true := by
  simp [MethodDecl.sameSignature]

theorem joins_of_first (first : shares.find? (·.method.name = name) = some p) :
    joins shares p = true := by
  have named : p.method.name = name := by simpa using List.find?_some first
  rw [joins, named, first]
  exact sameSignature_self p.method

theorem joins_append_of_mem (member : p ∈ shares) (more : List FunctionShare) :
    joins (shares ++ more) p = joins shares p := by
  obtain ⟨first, found⟩ : ∃ first, shares.find? (·.method.name = p.method.name) = some first :=
    Option.isSome_iff_exists.mp (List.find?_isSome.mpr ⟨p, member, decide_eq_true rfl⟩)
  rw [joins, joins, List.find?_append, found, Option.some_or]

/-- The first share of a name goes into a method. -/
theorem find?_filter_joins (shares : List FunctionShare) (name : String) :
    (shares.filter (joins shares)).find? (·.method.name = name) =
      shares.find? (·.method.name = name) := by
  rw [List.find?_filter]
  cases found : shares.find? (·.method.name = name) with
  | none =>
    rw [List.find?_eq_none] at found ⊢
    exact fun p member both => found p member (by simp_all)
  | some first =>
    obtain ⟨named, before, after, split, earlier⟩ := List.find?_eq_some_iff_append.mp found
    refine List.find?_eq_some_iff_append.mpr ⟨?_, before, after, split, fun p member => ?_⟩
    · simp only [joins_of_first found, decide_eq_true_eq] at named ⊢
      simpa using named
    · have other := earlier p member
      simp_all

theorem joins_singleton (p : FunctionShare) : joins [p] p = true :=
  joins_of_first (List.find?_cons_of_pos (decide_eq_true rfl))

theorem joined_singleton (p : FunctionShare) : joined [p] = [p.toFunctionPart] := by
  rw [joined, List.filter_cons_of_pos (joins_singleton p)]
  rfl

theorem allErrors_singleton (p : FunctionShare) : allErrors [p] = p.errors := by
  rw [allErrors, List.flatMap_singleton, if_pos (joins_singleton p), List.append_nil]

theorem joined_concat (shares : List FunctionShare) (p : FunctionShare) :
    joined (shares ++ [p]) =
      joined shares ++ if joins (shares ++ [p]) p then [p.toFunctionPart] else [] := by
  have earlier : shares.filter (joins (shares ++ [p])) = shares.filter (joins shares) :=
    List.filter_congr fun q member => joins_append_of_mem member [p]
  rw [joined, List.filter_append, earlier, List.map_append, ← joined, List.filter_singleton]
  cases joins (shares ++ [p]) p <;> rfl

theorem allErrors_concat (shares : List FunctionShare) (p : FunctionShare) :
    allErrors (shares ++ [p]) = allErrors shares ++ (p.errors ++
      if joins (shares ++ [p]) p then [] else [TranslationContext.redeclared p.method]) := by
  rw [allErrors, List.flatMap_append, List.flatMap_singleton]
  congr 1
  refine List.flatMap_congr fun q member => ?_
  rw [joins_append_of_mem member]

theorem find?_joined (shares : List FunctionShare) (name : String) :
    (joined shares).find? (·.method.name = name) =
      (shares.find? (·.method.name = name)).map (·.toFunctionPart) := by
  rw [joined, List.find?_map]
  exact congrArg (Option.map _) (find?_filter_joins shares name)

/-- The method that a share finds under its name has the signature of the first share. -/
theorem joins_concat (shares : List FunctionShare) (p : FunctionShare) :
    joins (shares ++ [p]) p = (FunctionPart.wholeOf ((joined shares).filter
      (·.method.name = p.method.name))).all (·.sameSignature p.method) := by
  rw [joins, List.find?_append, FunctionPart.wholeOf, List.head?_filter, find?_joined]
  cases shares.find? (·.method.name = p.method.name) with
  | none => simp [sameSignature_self]
  | some first => rfl

end Joining

end FunctionShare

/-- A method is merged if the one of its name that is there has its signature. -/
theorem TranslationContext.mergeMethod_eq (c : TranslationContext) (p : FunctionPart) :
    c.mergeMethod p.method =
      if (c.methods.get? p.method.name).all (·.sameSignature p.method) then
        .ok { c with methods := FunctionPart.fileAmong c.methods p }
      else .error (redeclared p.method) := by
  unfold mergeMethod FunctionPart.fileAmong
  cases c.methods.get? p.method.name <;> rfl

namespace TranslationEnv

variable {env : TranslationEnv}

/-- The error of a field whose type is not known. -/
def fieldError? (env : TranslationEnv) (v : VariableDecl) : Option CompilerError :=
  if (env.typeName? v.type).isNone then some (.translation none v.unknownType) else none

/-- The errors of the fields of a graph. -/
def fieldErrors (env : TranslationEnv) : List CompilerError :=
  (env.graph.vars.values.filter fun v => v.scope = .field).filterMap env.fieldError?

/-- What is made of a function where the fields are there and nothing else. -/
def shareOf (env : TranslationEnv) (f : NodeId × FunctionDecl) : FunctionShare :=
  let made := (functionMethod env f.1 f.2).run (env.opened none)
  { function := f.1
    decl := f.2
    method := made.1
    errors := made.2.context.errors.drop (env.opened none).context.errors.length }

/-- The state after the fields and some of the functions are translated, without a trace. -/
def stateAfter (env : TranslationEnv) (functions : List (NodeId × FunctionDecl)) : TranslatorState :=
  ((functions.forM fun (function, decl) => translateFunction env function decl).run
    (env.opened none)).2

/-- What is gathered when some of the functions are translated and the others are skipped. -/
def gatherOnly (env : TranslationEnv) (functions : List (NodeId × FunctionDecl)) :
    TranslationContext :=
  (env.stateAfter functions).context.flushRegistrations env.options.registrationMethod

/-! ### One function -/

theorem translateField_run (env : TranslationEnv) (v : VariableDecl) (s : TranslatorState) :
    ∃ fields, ((translateField env v).run s).2 =
      { s with context :=
        { s.context with fields, errors := s.context.errors ++ (env.fieldError? v).toList } } := by
  unfold translateField fieldError?
  cases env.typeName? v.type with
  | none => exact ⟨s.context.fields, rfl⟩
  | some type =>
    refine ⟨(s.context.addField ⟨v.visibility, type, sanitize v.name,
      v.initialValue.map Constant.expr⟩).2.fields, ?_⟩
    change { s with context := (s.context.addField _).2 } = _
    unfold TranslationContext.addField
    split <;> simp

theorem translateFields_run (env : TranslationEnv) (vars : List VariableDecl) (s : TranslatorState) :
    ∃ fields, ((vars.forM (translateField env)).run s).2 =
      { s with context :=
        { s.context with
          fields, errors := s.context.errors ++ vars.filterMap env.fieldError? } } := by
  induction vars generalizing s with
  | nil => exact ⟨s.context.fields, by rw [List.filterMap_nil, List.append_nil]; rfl⟩
  | cons v rest ih =>
    obtain ⟨fields, first⟩ := env.translateField_run v s
    obtain ⟨fields', others⟩ := ih ((translateField env v).run s).2
    have run : (((v :: rest).forM (translateField env)).run s).2 =
        ((rest.forM (translateField env)).run ((translateField env v).run s).2).2 := rfl
    refine ⟨fields', run.trans (others.trans ?_)⟩
    rw [first, List.filterMap_cons]
    cases env.fieldError? v <;> simp

/-- The fields of a graph are gathered, with their errors, and nothing else. -/
theorem opened_eq (env : TranslationEnv) : ∃ fields, env.opened none =
    ⟨{ TranslationContext.empty with fields, errors := env.fieldErrors }, none, ∅, [], []⟩ :=
  translateFields_run env _ _

/-- What the shares of functions are gathered to. -/
def gathered (env : TranslationEnv) (shares : List FunctionShare) : TranslationContext :=
  { (env.opened none).context with
    methods := (FunctionShare.joined shares).foldl FunctionPart.fileAmong ∅
    registrations := (FunctionShare.joined shares).foldl FunctionPart.subscribeAmong ∅
    errors := env.fieldErrors ++ FunctionShare.allErrors shares }

/-- Whatever has been gathered, the method of a function is the one it has by itself. -/
theorem functionMethod_share (builtIn : env.graph.BuiltIn) (f : NodeId × FunctionDecl)
    {s : TranslatorState} (untraced : s.trace = none) {shares : List FunctionShare}
    (context : s.context = env.gathered shares) :
    ((functionMethod env f.1 f.2).run s).1 = (env.shareOf f).method ∧
      ((functionMethod env f.1 f.2).run s).2.context =
        s.context.withErrors (env.shareOf f).errors ∧
      ((functionMethod env f.1 f.2).run s).2.trace = none := by
  have readsFieldsOnly := (ReadsFieldsOnly.pervades env).functionMethod (builtIn.keeps _) f.1 f.2
  have fresh : (env.opened none).trace = none := by
    obtain ⟨fields, opened⟩ := env.opened_eq
    rw [opened]
  obtain ⟨still, errors, run⟩ := readsFieldsOnly (env.opened none) fresh
  have own : (env.shareOf f).errors = errors := by
    have added := congrArg (fun r => r.2.context.errors) (run (env.opened none).context rfl)
    change List.drop _ ((functionMethod env f.1 f.2).run (env.opened none)).2.context.errors = errors
    rw [added]
    exact List.drop_left
  -- Everything but the context and the trace is reset before the function is translated.
  have reset : ∀ s : TranslatorState, (functionMethod env f.1 f.2).run s =
      (functionMethod env f.1 f.2).run ⟨s.context, s.trace, ∅, [], []⟩ := fun _ => rfl
  have same : (functionMethod env f.1 f.2).run s =
      (functionMethod env f.1 f.2).run { env.opened none with context := s.context } := by
    refine (reset s).trans (Eq.trans ?_ (reset _).symm)
    dsimp only
    rw [untraced, fresh]
  have fields : s.context.fields = (env.opened none).context.fields := by
    rw [context]
    rfl
  rw [same, run s.context fields, own]
  exact ⟨rfl, rfl, still⟩

/-! ### All functions -/

/-- A further share is filed among those gathered, or it adds an error. -/
theorem gathered_concat (env : TranslationEnv) (shares : List FunctionShare) (p : FunctionShare)
    {s : TranslatorState} (context : s.context = (env.gathered shares).withErrors p.errors) :
    ((fileMethod p.function p.decl p.method).run s).2 =
      { s with context := env.gathered (shares ++ [p]) } := by
  have merged := s.context.mergeMethod_eq p.toFunctionPart
  have present : s.context.methods.get? p.method.name =
      FunctionPart.wholeOf ((FunctionShare.joined shares).filter (·.method.name = p.method.name)) := by
    rw [context]
    exact FunctionPart.get?_fileAll _ _
  rw [present, ← FunctionShare.joins_concat] at merged
  rw [gathered, FunctionShare.joined_concat, FunctionShare.allErrors_concat]
  split at merged
  · rename_i joins
    rw [fileMethod_ok merged, if_pos joins, if_pos joins, context, List.foldl_append,
      List.foldl_append, List.append_nil, ← List.append_assoc]
    rfl
  · rename_i apart
    rw [fileMethod_error merged, if_neg apart, if_neg apart, context, List.append_nil,
      ← List.append_assoc, ← List.append_assoc]
    rfl

theorem stateAfter_concat (env : TranslationEnv) (functions : List (NodeId × FunctionDecl))
    (f : NodeId × FunctionDecl) :
    let made := (functionMethod env f.1 f.2).run (env.stateAfter functions)
    env.stateAfter (functions ++ [f]) = ((fileMethod f.1 f.2 made.1).run made.2).2 := by
  intro made
  have split : env.stateAfter (functions ++ [f]) = ((forM (functions ++ [f]) fun (function, decl) =>
    translateFunction env function decl).run (env.opened none)).2 := rfl
  rw [split, List.forM_append]
  rfl

/-- Whichever functions are translated, what they are gathered to are their shares. -/
theorem stateAfter_gathered (builtIn : env.graph.BuiltIn)
    (functions : List (NodeId × FunctionDecl)) : (env.stateAfter functions).trace = none ∧
      (env.stateAfter functions).context = env.gathered (functions.map env.shareOf) := by
  induction functions using List.reverseRecOn with
  | nil =>
    obtain ⟨fields, opened⟩ := env.opened_eq
    rw [List.map_nil, gathered, FunctionShare.allErrors, List.flatMap_nil, List.append_nil]
    change (env.opened none).trace = none ∧ (env.opened none).context = _
    rw [opened]
    exact ⟨rfl, rfl⟩
  | append_singleton earlier f ih =>
    obtain ⟨untraced, context⟩ := ih
    obtain ⟨method, added, still⟩ := functionMethod_share builtIn f untraced context
    rw [context] at added
    have filed := env.gathered_concat (earlier.map env.shareOf) (env.shareOf f) added
    rw [← method] at filed
    have last := (env.stateAfter_concat earlier f).trans filed
    rw [last, List.map_append]
    exact ⟨still, rfl⟩

theorem gatherOnly_errors (builtIn : env.graph.BuiltIn)
    (functions : List (NodeId × FunctionDecl)) : (env.gatherOnly functions).errors =
      env.fieldErrors ++ FunctionShare.allErrors (functions.map env.shareOf) := by
  rw [gatherOnly, flushRegistrations_errors, (stateAfter_gathered builtIn functions).2]
  rfl

theorem heldBy_stateAfter (builtIn : env.graph.BuiltIn)
    (functions : List (NodeId × FunctionDecl)) :
    FunctionPart.HeldBy (FunctionShare.joined (functions.map env.shareOf))
      (env.stateAfter functions).context := by
  rw [(stateAfter_gathered builtIn functions).2]
  exact ⟨rfl, rfl⟩

/-- How a method is put together of the shares of functions: it has the signature of the first share
of its name, and behind the subscriptions, if it holds any, stand the bodies of the shares that join
the first one. -/
structure MadeOf (env : TranslationEnv) (shares : List FunctionShare) (m : MethodDecl) : Prop where
  body : m.body =
    FunctionPart.subscriptionsIn (FunctionShare.joined shares) env.options.registrationMethod m.name ++
      ((FunctionShare.joined shares).filter (·.method.name = m.name)).flatMap (·.method.body)
  signature : ∀ first, shares.find? (·.method.name = m.name) = some first →
    m.sameSignature first.method = true

theorem gatherOnly_methods (builtIn : env.graph.BuiltIn)
    (functions : List (NodeId × FunctionDecl)) {name : String} {m : MethodDecl}
    (filed : (env.gatherOnly functions).methods.get? name = some m) :
    m.name = name ∧ env.MadeOf (functions.map env.shareOf) m := by
  obtain ⟨named, body, signature⟩ := (heldBy_stateAfter builtIn functions).flush _ filed
  subst named
  refine ⟨rfl, body, fun first found => signature first.toFunctionPart ?_⟩
  rw [FunctionShare.find?_joined, found]
  rfl

theorem exists_gatherOnly (builtIn : env.graph.BuiltIn)
    {functions : List (NodeId × FunctionDecl)} {p : FunctionShare}
    (member : p ∈ functions.map env.shareOf) :
    ∃ m, (env.gatherOnly functions).methods.get? p.method.name = some m := by
  refine Option.isSome_iff_exists.mp
    ((heldBy_stateAfter builtIn functions).isSome_flush _ (.inl fun none => ?_))
  have found := FunctionShare.find?_joined (functions.map env.shareOf) p.method.name
  rw [← List.head?_filter, none, List.head?_nil, eq_comm, Option.map_eq_none_iff,
    List.find?_eq_none] at found
  exact found p member (decide_eq_true rfl)

/-- A function that is translated alone becomes a method with its own parameters and body. -/
theorem gatherOnly_singleton (builtIn : env.graph.BuiltIn) (f : NodeId × FunctionDecl) :
    ∃ m, (env.gatherOnly [f]).methods.get? (env.shareOf f).method.name = some m ∧
      m.parameters = (env.shareOf f).method.parameters ∧
      m.body = FunctionPart.subscriptionsIn [(env.shareOf f).toFunctionPart]
        env.options.registrationMethod m.name ++ (env.shareOf f).method.body := by
  have member : env.shareOf f ∈ [f].map env.shareOf := List.mem_singleton_self _
  obtain ⟨m, filed⟩ := exists_gatherOnly builtIn member
  obtain ⟨named, body, signature⟩ := gatherOnly_methods builtIn [f] filed
  rw [List.map_singleton] at body signature
  have own : [env.shareOf f].find? (·.method.name = m.name) = some (env.shareOf f) :=
    List.find?_cons_of_pos (decide_eq_true named.symm)
  have same := signature _ own
  simp only [MethodDecl.sameSignature, Bool.and_eq_true, decide_eq_true_eq] at same
  refine ⟨m, filed, same.2, ?_⟩
  rw [body, FunctionShare.joined_singleton]
  simp [named]

/-- Functions are translated independently of one another. What is made of each in its place is what
is made of it when all others are skipped; the errors of a graph are those of its fields, then those
of the functions in order; and the methods are put together of what is made of the functions. A
function whose signature is not that of the first one of its name goes into no method and subscribes
to nothing, but adds an error behind its own ones. -/
theorem functions_apart (env : TranslationEnv) (builtIn : env.graph.BuiltIn) :
    let shares := env.graph.functions.map env.shareOf
    let emitted := (env.translate none).unit.classDecl.methods
    (∀ before f after, env.graph.functions = before ++ f :: after →
      let made := (functionMethod env f.1 f.2).run (env.stateAfter before)
      made.1 = (env.shareOf f).method ∧
        made.2.context.errors =
          (env.stateAfter before).context.errors ++ (env.shareOf f).errors) ∧
    (∀ f ∈ env.graph.functions,
      (env.gatherOnly [f]).errors = env.fieldErrors ++ (env.shareOf f).errors ∧
      ∃ m, (env.gatherOnly [f]).methods.get? (env.shareOf f).method.name = some m ∧
        m.parameters = (env.shareOf f).method.parameters ∧
        m.body = FunctionPart.subscriptionsIn [(env.shareOf f).toFunctionPart]
          env.options.registrationMethod m.name ++ (env.shareOf f).method.body) ∧
    (env.translate none).errors = env.fieldErrors ++ FunctionShare.allErrors shares ∧
    (∀ m ∈ emitted, env.MadeOf shares m) ∧
    ∀ p ∈ shares, ∃ m ∈ emitted, m.name = p.method.name := by
  intro shares emitted
  refine ⟨?_, fun f _ => ⟨?_, gatherOnly_singleton builtIn f⟩, gatherOnly_errors builtIn _, ?_, ?_⟩
  · intro before f after _ made
    obtain ⟨untraced, context⟩ := stateAfter_gathered builtIn before
    obtain ⟨method, added, -⟩ := functionMethod_share builtIn f untraced context
    exact ⟨method, congrArg TranslationContext.errors added⟩
  · rw [gatherOnly_errors builtIn, List.map_singleton, FunctionShare.allErrors_singleton]
  · intro m inside
    obtain ⟨name, entry⟩ := OrderedMap.mem_values_iff.mp inside
    exact (gatherOnly_methods builtIn _ (OrderedMap.get?_eq_some_iff.mpr entry)).2
  · intro p member
    obtain ⟨m, filed⟩ := exists_gatherOnly builtIn member
    exact ⟨m, OrderedMap.mem_values_of_get? filed, (gatherOnly_methods builtIn _ filed).1⟩

end TranslationEnv

/-- A method and the handler of an event, which is named like it and returns nothing. -/
def rivals : Graph :=
  { Graph.empty "Rivals" with
    nodes := ⟨
      [placed 10 (.function (.method "OnJump" .float)) none [] [.execOutput "Out"],
        placed 20 (.function (.onEvent (.custom "Jump"))) none [] [.execOutput "Out"]],
      by decide⟩ }

def rivalsEnv : TranslationEnv := ⟨rivals, TypeDatabase.standard.toOracle, .standard, ∅⟩

/-- The handler is refused with one error, and it does not subscribe to its event. -/
theorem TranslationEnv.functions_apart_rivals :
    rivals.BuiltIn ∧
      (rivalsEnv.translate none).errors.map (·.message) =
        ["Method `OnJump` is declared again with a different signature"] ∧
      (∀ m ∈ (rivalsEnv.translate none).unit.classDecl.methods,
        rivalsEnv.MadeOf (rivals.functions.map rivalsEnv.shareOf) m) ∧
      (rivalsEnv.translate none).unit.classDecl.methods.map (·.name) = ["OnJump"] := by
  have builtIn : rivals.BuiltIn := Graph.BuiltIn.of_entries (by decide)
  obtain ⟨-, -, errors, made, -⟩ := functions_apart rivalsEnv builtIn
  refine ⟨builtIn, ?_, made, by decide +kernel⟩
  rw [errors]
  decide +kernel

end NodeScript
