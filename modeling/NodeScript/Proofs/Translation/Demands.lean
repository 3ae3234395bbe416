import NodeScript.Proofs.Translation.Depth
import NodeScript.Proofs.Translation.Evaluation
import NodeScript.Typing.TypeDatabase
import Mathlib.Data.Finset.Basic

/-!
Values that would need themselves. The nodes whose values are being built may be kept in one set,
which a node enters before its inputs are read and leaves again whatever comes of them; this makes no
difference to what is told. A value is told only if nothing that it needs needs itself, and that data
flows back is told only if something does.
-/

namespace NodeScript

open Relation
open NodeScript.Graph (placed wired numbered)

/-! ### What is read for a value -/

/-- How a value is put together: the inputs that are read one after the other, and the outcome. -/
inductive Recipe where
  | outcome (result : Except CompilerError Expr)
  | read (input : String) (next : Expr → Recipe)

namespace Recipe

/-- Reads several inputs, in order. -/
def readAll : List String → (List Expr → Recipe) → Recipe
  | [], next => next []
  | name :: rest, next => .read name fun first => readAll rest fun others => next (first :: others)

/-- Carries a recipe out, the inputs being read by `input`. -/
def carryOut {σ : Type} (input : String → ExceptT CompilerError (StateM σ) Expr) :
    Recipe → ExceptT CompilerError (StateM σ) Expr
  | outcome result => MonadExcept.ofExcept result
  | read name next => input name >>= fun e => (next e).carryOut input

end Recipe

/-- The error of a value that would need itself. -/
def CompilerError.IsDataCycle (e : CompilerError) : Prop :=
  e.message = "Data flows back into this node"

theorem CompilerError.not_isDataCycle {e : CompilerError}
    (start : e.message.toList.head? ≠ some 'D') : ¬ e.IsDataCycle := by
  intro cycle
  rw [show e.message = _ from cycle] at start
  exact start rfl

/-- A recipe reads these inputs in order, unless it fails before; and it does not tell of itself that
data flows back. -/
inductive Recipe.Reads : List String → Recipe → Prop
  | done {e} : Reads [] (.outcome (.ok e))
  | failed {names e} : ¬ e.IsDataCycle → Reads names (.outcome (.error e))
  | read {name rest next} : (∀ e, Reads rest (next e)) → Reads (name :: rest) (.read name next)

theorem Recipe.Reads.readAll {names : List String} {next : List Expr → Recipe}
    (ends : ∀ es, Reads [] (next es)) : Reads names (Recipe.readAll names next) := by
  induction names generalizing next with
  | nil => exact ends []
  | cons name rest ih => exact .read fun first => ih fun others => ends (first :: others)

namespace TranslationEnv

/-- The recipe of an operator that its operands may not have. -/
def operatorRecipe (env : TranslationEnv) (n : Node) (value : Expr) : Recipe :=
  .outcome ((env.operatorFault? n n.kind).elim (.ok value) .error)

/-- The recipe of a call. -/
def callRecipe (env : TranslationEnv) (n : Node) (call : CallDecl) : Recipe :=
  match env.oracle.method? call.method with
  | none => .outcome (.error (nodeError n.id s!"Unknown method `{call.method.text}`"))
  | some m =>
    match env.callTypeArgs n call m.genericParameters with
    | .error e => .outcome (.error e)
    | .ok types =>
      let calling target := .readAll (m.parameters.map (·.name)) fun args =>
        .outcome (.ok (.callOn target m.name types args))
      if m.isStatic then calling (.ident m.declaringType.name) else .read "Instance" calling

/-- The recipe of the value at an output of a node of the built-in kinds. -/
def recipe (env : TranslationEnv) (n : Node) (output : String) : Recipe :=
  match n.kind with
  | .constant value => .outcome (.ok value.expr)
  | .getVariable id =>
    match env.graph.variableDecl? id with
    | some v => .outcome (.ok (.ident (sanitize v.name)))
    | none => .outcome (.error (nodeError n.id "Read variable no longer exists"))
  | .this => .outcome (.ok .this)
  | .binary op => .read "A" fun lhs => .read "B" fun rhs =>
    env.operatorRecipe n (.binary op.token lhs rhs)
  | .unary op => .read "Value" fun operand => env.operatorRecipe n (.unary op.token operand)
  | .call call =>
    if n.isStacked then
      .outcome (.error (nodeError n.id
        s!"Result of `{call.method.text}` is used before the call runs"))
    else env.callRecipe n call
  | .forEach => .outcome (.error (nodeError n.id "Loop item is used outside its loop"))
  | _ => .outcome (.error (nodeError n.id s!"`{n.title}` has no value output `{output}`"))

/-- The inputs that the value of a node is put together from. -/
def valueInputs (env : TranslationEnv) (n : Node) : List String :=
  match n.kind with
  | .binary _ => ["A", "B"]
  | .unary _ => ["Value"]
  | .call call =>
    if n.isStacked then []
    else
      match env.oracle.method? call.method with
      | none => []
      | some m => (if m.isStatic then [] else ["Instance"]) ++ m.parameters.map (·.name)
  | _ => []

variable {env : TranslationEnv} {n : Node} {output : String}

theorem operatorRecipe_reads (env : TranslationEnv) (n : Node) (value : Expr) :
    (env.operatorRecipe n value).Reads [] := by
  unfold operatorRecipe
  cases fault : env.operatorFault? n n.kind with
  | none => exact .done
  | some e => exact .failed (e.not_isDataCycle (by simp [operatorFault?_head fault]))

theorem callRecipe_reads {call : CallDecl} (kind : n.kind = .call call)
    (free : n.isStacked = false) : (env.callRecipe n call).Reads (env.valueInputs n) := by
  simp only [callRecipe, valueInputs, kind, free, Bool.false_eq_true, if_false]
  cases env.oracle.method? call.method with
  | none =>
    exact .failed (CompilerError.not_isDataCycle
      (by simp [nodeError, CompilerError.translation, toString]))
  | some m =>
    cases types : env.callTypeArgs n call m.genericParameters with
    | error e =>
      simp only [types]
      exact .failed (CompilerError.not_isDataCycle (by simp [callTypeArgs_head types]))
    | ok types' =>
      by_cases static : m.isStatic = true
      · simp only [types, static, if_true]
        exact .readAll fun _ => .done
      · simp only [types, static, Bool.false_eq_true, if_false]
        exact .read fun _ => .readAll fun _ => .done

/-- A recipe reads the inputs that the value is put together from. -/
theorem recipe_reads (env : TranslationEnv) (n : Node) (output : String) :
    (env.recipe n output).Reads (env.valueInputs n) := by
  have fails : ∀ {names message}, message.toList.head? ≠ some 'D' →
      Recipe.Reads names (.outcome (.error (nodeError n.id message))) := fun start =>
    .failed (CompilerError.not_isDataCycle start)
  cases kind : n.kind with
  | constant | this =>
    simp only [recipe, valueInputs, kind]
    exact .done
  | getVariable id =>
    simp only [recipe, valueInputs, kind]
    cases env.graph.variableDecl? id with
    | some v => exact .done
    | none => exact fails (by decide)
  | binary op =>
    simp only [recipe, valueInputs, kind]
    exact .read fun _ => .read fun _ => env.operatorRecipe_reads n _
  | unary op =>
    simp only [recipe, valueInputs, kind]
    exact .read fun _ => env.operatorRecipe_reads n _
  | call call =>
    by_cases stacked : n.isStacked = true
    · simp only [recipe, valueInputs, kind, stacked, if_true]
      exact fails (by simp [toString])
    · simp only [recipe, kind, stacked, Bool.false_eq_true, if_false]
      exact callRecipe_reads kind (by simpa using stacked)
  | forEach =>
    simp only [recipe, valueInputs, kind]
    exact fails (by decide)
  | stack | loopStack | function | setVariable | branch | select | repeated | leave | custom =>
    simp only [recipe, valueInputs, kind]
    exact fails (by simp [toString])

theorem readInputs_carryOut {input : String → Evaluate Expr} {names : List String}
    {finish : List Expr → Expr} :
    (Recipe.readAll names fun es => .outcome (.ok (finish es))).carryOut input =
      readInputs input names >>= fun es => pure (finish es) := by
  induction names generalizing finish with
  | nil => rfl
  | cons name rest ih =>
    rw [Recipe.readAll, Recipe.carryOut, readInputs, bind_assoc]
    refine bind_congr fun first => ?_
    rw [ih, bind_assoc]
    rfl

theorem callExpr_eq (input : String → Evaluate Expr) (call : CallDecl) :
    env.callExpr n call input = (env.callRecipe n call).carryOut input := by
  unfold callExpr callRecipe
  cases env.oracle.method? call.method with
  | none => rfl
  | some m =>
    cases types : env.callTypeArgs n call m.genericParameters with
    | error e => simp only [types]; rfl
    | ok types' =>
      by_cases static : m.isStatic = true
      · simp only [types, static, if_true]
        exact readInputs_carryOut.symm
      · simp only [types, static, Bool.false_eq_true, if_false]
        exact bind_congr fun target => readInputs_carryOut.symm

/-- The value at an output is told by its recipe. -/
theorem valueOf_eq (input : String → Evaluate Expr) (builtIn : n.kind.isBuiltIn = true) :
    env.valueOf n output input = (env.recipe n output).carryOut input := by
  cases kind : n.kind with
  | constant | this | forEach =>
    simp only [valueOf, recipe, kind]
    rfl
  | getVariable id =>
    simp only [valueOf, recipe, kind]
    cases env.graph.variableDecl? id <;> rfl
  | binary op =>
    simp only [valueOf, recipe, kind]
    refine bind_congr fun lhs => bind_congr fun rhs => ?_
    unfold operatorRecipe
    rw [← kind]
    cases env.operatorFault? n n.kind <;> rfl
  | unary op =>
    simp only [valueOf, recipe, kind]
    refine bind_congr fun operand => ?_
    unfold operatorRecipe
    rw [← kind]
    cases env.operatorFault? n n.kind <;> rfl
  | call call =>
    simp only [valueOf, recipe, kind]
    split
    · rfl
    · exact callExpr_eq input call
  | custom => simp [kind, NodeKind.isBuiltIn] at builtIn
  | stack | loopStack | function | setVariable | branch | select | repeated | leave =>
    simp only [valueOf, recipe, kind]
    rfl

end TranslationEnv

/-! ### The nodes whose values are being built, kept in one set -/

/-- What changes while values are built: the state of the translation, and the nodes whose values
are being built. -/
structure BuildState where
  translator : TranslatorState
  building : Finset NodeId

/-- A part of the building of values. -/
abbrev Build := ExceptT CompilerError (StateM BuildState)

/-- Builds a value while its node is among those whose values are being built. The node is taken out
again whether there is a value or an error. -/
def whileBuilding (node : NodeId) (value : Build Expr) : Build Expr := ExceptT.mk do
  modify fun s => { s with building := insert node s.building }
  let result ← value.run
  modify fun s => { s with building := s.building.erase node }
  return result

/-- The expression of the value at an input, all that lies deeper being left to `deeper`. The nodes
whose values are being built are looked up in the state. -/
def TranslationEnv.buildFrom (env : TranslationEnv) (deeper : NodeId → String → Build Expr)
    (node : NodeId) (input : String) : Build Expr :=
  match env.graph.node? node with
  | none => throw (nodeError node "Node no longer exists")
  | some n =>
    match n.input? input with
    | none => throw (nodeError node s!"`{n.title}` has no input `{input}`")
    | some port =>
      match env.graph.inputSource? node input with
      | none => MonadExcept.ofExcept (env.unconnectedInput { n with id := node } port input)
      | some (source, sourcePort) => do
        let s ← get
        match s.translator.bound.get? ⟨source.id, sourcePort.name⟩ with
        | some name => return .ident name
        | none =>
          match env.graph.node? source.id with
          | none => throw (nodeError source.id "Node no longer exists")
          | some origin =>
            if s.translator.closed.contains ⟨source.id, sourcePort.name⟩ then
              throw (nodeError source.id
                s!"Value of `{origin.title}` is produced in another branch")
            else if source.id ∈ s.building then throw (cyclicValue source.id)
            else
              whileBuilding source.id
                ((env.recipe origin sourcePort.name).carryOut (deeper origin.id))

/-- The values of inputs down to a depth, below which `cut` takes their place. -/
def TranslationEnv.buildCut (env : TranslationEnv) (cut : NodeId → String → Build Expr) :
    (depth : Nat) → NodeId → String → Build Expr
  | 0 => cut
  | depth + 1 => env.buildFrom (env.buildCut cut depth)

section Mirrors

variable {α β : Type} {s : TranslatorState} {under : List NodeId}

/-- Building tells the same as the evaluation, which leaves the state alone, and it leaves the nodes
alone whose values are being built. -/
def Mirrors (s : TranslatorState) (under : List NodeId) (built : Build α) (told : Evaluate α) : Prop :=
  (told.run.run s).2 = s ∧
    built.run.run ⟨s, under.toFinset⟩ = ((told.run.run s).1, ⟨s, under.toFinset⟩)

namespace Mirrors

theorem pure {a : α} : Mirrors s under (pure a) (pure a) := ⟨rfl, rfl⟩

theorem throw {e : CompilerError} : Mirrors s under (throw e : Build α) (throw e) := ⟨rfl, rfl⟩

theorem ofExcept {r : Except CompilerError α} :
    Mirrors s under (MonadExcept.ofExcept r) (MonadExcept.ofExcept r) := by
  cases r <;> exact ⟨rfl, rfl⟩

theorem bind {built : Build α} {told : Evaluate α} {built' : α → Build β} {told' : α → Evaluate β}
    (first : Mirrors s under built told) (next : ∀ a, Mirrors s under (built' a) (told' a)) :
    Mirrors s under (built >>= built') (told >>= told') := by
  obtain ⟨unchanged, same⟩ := first
  generalize outcome : told.run.run s = after at unchanged same
  obtain ⟨result, s'⟩ := after
  obtain rfl : s' = s := unchanged
  unfold Mirrors
  rw [ExceptT.run_bind, StateT.run_bind, ExceptT.run_bind, StateT.run_bind, same, outcome]
  cases result with
  | ok a => exact next a
  | error e => exact ⟨rfl, rfl⟩

theorem reading {built : BuildState → Build α} {told : TranslatorState → Evaluate α}
    (next : Mirrors s under (built ⟨s, under.toFinset⟩) (told s)) :
    Mirrors s under (get >>= built) (get >>= told) := next

theorem carryOut {built : String → Build Expr} {told : String → Evaluate Expr}
    (inputs : ∀ name, Mirrors s under (built name) (told name)) (recipe : Recipe) :
    Mirrors s under (recipe.carryOut built) (recipe.carryOut told) := by
  induction recipe with
  | outcome result => exact ofExcept
  | read name next ih => exact (inputs name).bind ih

/-- A node that was not there is gone again from the nodes whose values are being built. -/
theorem whileBuilding {source : NodeId} {built : Build Expr} {told : Evaluate Expr}
    (new : source ∉ under) (within : Mirrors s (source :: under) built told) :
    Mirrors s under (whileBuilding source built) told := by
  obtain ⟨unchanged, same⟩ := within
  have left : (insert source under.toFinset).erase source = under.toFinset :=
    Finset.erase_insert (by simpa using new)
  refine ⟨unchanged, ?_⟩
  rw [List.toFinset_cons] at same
  calc (NodeScript.whileBuilding source built).run.run ⟨s, under.toFinset⟩
      = let after := built.run.run ⟨s, insert source under.toFinset⟩
        (after.1, { after.2 with building := after.2.building.erase source }) := rfl
    _ = ((told.run.run s).1, ⟨s, (insert source under.toFinset).erase source⟩) := by rw [same]
    _ = ((told.run.run s).1, ⟨s, under.toFinset⟩) := by rw [left]

end Mirrors

namespace TranslationEnv

variable {env : TranslationEnv}

theorem buildFrom_mirrors {deeper : NodeId → String → Build Expr}
    {build : NodeId → Node → String → Evaluate Expr}
    (builds : ∀ {source origin} output, env.graph.node? source = some origin → source ∉ under →
      Mirrors s (source :: under) ((env.recipe origin output).carryOut (deeper origin.id))
        (build source origin output))
    (node : NodeId) (input : String) :
    Mirrors s under (env.buildFrom deeper node input) (env.inputFrom under build node input) := by
  unfold buildFrom inputFrom
  cases env.graph.node? node with
  | none => exact .throw
  | some n =>
  dsimp only
  cases n.input? input with
  | none => exact .throw
  | some port =>
  dsimp only
  cases env.graph.inputSource? node input with
  | none => exact .ofExcept
  | some connected =>
  obtain ⟨source, sourcePort⟩ := connected
  refine .reading ?_
  dsimp only
  cases s.bound.get? ⟨source.id, sourcePort.name⟩ with
  | some name => exact .pure
  | none =>
  dsimp only
  cases found : env.graph.node? source.id with
  | none => exact .throw
  | some origin =>
  dsimp only
  by_cases closed : s.closed.contains ⟨source.id, sourcePort.name⟩ = true
  · simp only [closed, if_true]
    exact .throw
  by_cases guarded : source.id ∈ under
  · simp only [closed, guarded, List.mem_toFinset, List.contains_iff_mem, if_true]
    exact .throw
  · simp only [closed, guarded, List.mem_toFinset, List.contains_iff_mem, if_false]
    exact .whileBuilding guarded (builds _ found guarded)

/-- Building with one set tells the same as the evaluation, at any depth that leaves room for all
nodes, whatever stands below it. -/
theorem buildCut_mirrors (builtIn : env.graph.BuiltIn) (cut : NodeId → String → Build Expr)
    {d d' : Nat} (within : env.graph.WithinDepth d under)
    (within' : env.graph.WithinDepth (d' + 1) under) (node : NodeId) (input : String) :
    Mirrors s under (env.buildCut cut d node input) (env.inputWithin d' under node input) := by
  induction d generalizing d' under node input with
  | zero => exact absurd rfl within.positive
  | succ d ih =>
    cases d' with
    | zero =>
      refine buildFrom_mirrors (fun output found new => ?_) node input
      exact absurd rfl (within'.cons new (OrderedMap.mem_keys_of_get? found)).positive
    | succ d' =>
      refine buildFrom_mirrors (fun {source origin} output found new => ?_) node input
      have key := OrderedMap.mem_keys_of_get? found
      rw [valueOf_eq _ (builtIn found)]
      exact .carryOut (ih (within.cons new key) (within'.cons new key) origin.id) _

end TranslationEnv

end Mirrors

/-! ### Values that depend on themselves -/

namespace TranslationEnv

/-- The value at an input is asked of a node: that is where it comes from, and no local holds it. -/
def Demands (env : TranslationEnv) (s : TranslatorState) (node : NodeId) (input : String)
    (source : NodeId) : Prop :=
  ∃ origin port, env.graph.inputSource? node input = some (origin, port) ∧
    s.bound.get? ⟨origin.id, port.name⟩ = none ∧ origin.id = source

/-- The value of a node needs that of another: one of the inputs that it is put together from demands
it. -/
def Needs (env : TranslationEnv) (s : TranslatorState) (node source : NodeId) : Prop :=
  ∃ n, env.graph.node? node = some n ∧ ∃ input ∈ env.valueInputs n, env.Demands s n.id input source

/-- Nothing that the value of a node needs, the node itself included, needs itself. -/
def Grounded (env : TranslationEnv) (s : TranslatorState) (node : NodeId) : Prop :=
  ∀ w, ReflTransGen (env.Needs s) node w → ¬ TransGen (env.Needs s) w w

/-- The value that an input demands depends on a value that depends on itself. -/
def DependsOnItself (env : TranslationEnv) (s : TranslatorState) (node : NodeId) (input : String) :
    Prop :=
  ∃ source w, env.Demands s node input source ∧ ReflTransGen (env.Needs s) source w ∧
    TransGen (env.Needs s) w w

/-- The inputs that may be asked for, with the nodes whose values are being built at that time: any
input at the outset, and then the inputs that the value is put together from. -/
inductive Asked (env : TranslationEnv) (s : TranslatorState) : List NodeId → NodeId → String → Prop
  | outset (node : NodeId) (input : String) : Asked env s [] node input
  | deeper {under node input source origin name} : Asked env s under node input →
      env.Demands s node input source → source ∉ under → env.graph.node? source = some origin →
      name ∈ env.valueInputs origin → Asked env s (source :: under) origin.id name

variable {env : TranslationEnv} {s : TranslatorState} {under : List NodeId} {node source : NodeId}
  {input : String}

theorem Grounded.of_needs (deeper : ∀ source, env.Needs s node source → env.Grounded s source) :
    env.Grounded s node := by
  intro w reach cycle
  rcases reach.cases_head with same | ⟨source, needs, rest⟩
  · -- the node itself: the cycle leads through something that it needs
    subst same
    obtain ⟨source, needs, back⟩ := TransGen.head'_iff.mp cycle
    exact deeper source needs node back cycle
  · exact deeper source needs w rest cycle

theorem not_dependsOnItself_iff :
    ¬ env.DependsOnItself s node input ↔
      ∀ source, env.Demands s node input source → env.Grounded s source := by
  constructor
  · intro clear source demands w reach cycle
    exact clear ⟨source, w, demands, reach, cycle⟩
  · rintro grounded ⟨source, w, demands, reach, cycle⟩
    exact grounded source demands w reach cycle

/-- What an input that is read deeper depends on, the input above depends on too. -/
theorem DependsOnItself.above {origin : Node} {name : String} (demands : env.Demands s node input source)
    (found : env.graph.node? source = some origin) (read : name ∈ env.valueInputs origin)
    (deeper : env.DependsOnItself s origin.id name) : env.DependsOnItself s node input := by
  obtain ⟨next, w, demanded, reach, cycle⟩ := deeper
  have needs : env.Needs s source next := ⟨origin, found, name, read, demanded⟩
  exact ⟨source, w, demands, .head needs reach, cycle⟩

/-- Each node whose value is being built needs what the input demands that is asked for. -/
theorem Asked.needs (asked : env.Asked s under node input) (demands : env.Demands s node input source) :
    ∀ x ∈ under, TransGen (env.Needs s) x source := by
  induction asked generalizing source with
  | outset => simp
  | deeper _ demanded _ found read ih =>
    have needs : env.Needs s _ source := ⟨_, found, _, read, demands⟩
    intro x member
    rcases List.mem_cons.mp member with rfl | above
    · exact .single needs
    · exact (ih demanded x above).tail needs

theorem Asked.withinDepth {depth : Nat} (asked : env.Asked s under node input)
    (enough : env.graph.nodes.size < depth) : env.graph.WithinDepth depth under := by
  have apart : under.Nodup ∧ under ⊆ env.graph.nodes.keys := by
    induction asked with
    | outset => exact ⟨List.nodup_nil, List.nil_subset _⟩
    | deeper _ _ new found _ ih =>
      have key := OrderedMap.mem_keys_of_get? found
      exact ⟨List.nodup_cons.mpr ⟨new, ih.1⟩, List.cons_subset.mpr ⟨key, ih.2⟩⟩
  exact ⟨apart.1, apart.2, by omega⟩

end TranslationEnv

section ReportsDataCycle

variable {α β : Type} {s : TranslatorState} {clear clear' cyclic : Prop}

/-- An evaluation leaves the state alone; it tells a value only if the way is clear, and that data
flows back only if there is a cycle. -/
structure ReportsDataCycle (m : Evaluate α) (s : TranslatorState) (clear cyclic : Prop) : Prop where
  unchanged : (m.run.run s).2 = s
  clear : ∀ a, (m.run.run s).1 = .ok a → clear
  cyclic : ∀ e, (m.run.run s).1 = .error e → e.IsDataCycle → cyclic

namespace ReportsDataCycle

theorem pure {a : α} (holds : clear) : ReportsDataCycle (pure a) s clear cyclic :=
  ⟨rfl, fun _ _ => holds, nofun⟩

theorem throw {e : CompilerError} (flows : e.IsDataCycle → cyclic) :
    ReportsDataCycle (throw e : Evaluate α) s clear cyclic := by
  refine ⟨rfl, nofun, ?_⟩
  rintro _ ⟨⟩
  exact flows

theorem ofExcept {r : Except CompilerError α} (holds : clear)
    (other : ∀ e, r = .error e → ¬ e.IsDataCycle) :
    ReportsDataCycle (MonadExcept.ofExcept r) s clear cyclic := by
  cases r with
  | ok a => exact pure holds
  | error e => exact throw fun flows => absurd flows (other e rfl)

theorem mono {m : Evaluate α} {cyclic' : Prop} (reports : ReportsDataCycle m s clear cyclic)
    (clearer : clear → clear') (flows : cyclic → cyclic') :
    ReportsDataCycle m s clear' cyclic' where
  unchanged := reports.unchanged
  clear a told := clearer (reports.clear a told)
  cyclic e failed flowing := flows (reports.cyclic e failed flowing)

theorem bind {m : Evaluate α} {f : α → Evaluate β} (first : ReportsDataCycle m s clear cyclic)
    (next : ∀ a, ReportsDataCycle (f a) s clear' cyclic) :
    ReportsDataCycle (m >>= f) s (clear ∧ clear') cyclic := by
  obtain ⟨unchanged, clears, flows⟩ := first
  generalize outcome : m.run.run s = after at unchanged clears flows
  obtain ⟨result, s'⟩ := after
  obtain rfl : s' = s := unchanged
  cases result with
  | ok a =>
    have run : (m >>= f).run.run s' = (f a).run.run s' := by
      rw [ExceptT.run_bind, StateT.run_bind, outcome]
      rfl
    exact ⟨by rw [run, (next a).unchanged],
      fun b told => ⟨clears a rfl, (next a).clear b (by rw [← run, told])⟩,
      fun e failed => (next a).cyclic e (by rw [← run, failed])⟩
  | error e =>
    have run : (m >>= f).run.run s' = (.error e, s') := by
      rw [ExceptT.run_bind, StateT.run_bind, outcome]
      rfl
    refine ⟨by rw [run], fun b told => ?_, fun e' failed => ?_⟩
    · rw [run] at told
      exact nomatch told
    · rw [run] at failed
      cases failed
      exact flows e rfl

theorem reading {f : TranslatorState → Evaluate α} (next : ReportsDataCycle (f s) s clear cyclic) :
    ReportsDataCycle (get >>= f) s clear cyclic := ⟨next.unchanged, next.clear, next.cyclic⟩

/-- A recipe that is carried out tells a value only after all that it reads. -/
theorem carryOut {input : String → Evaluate Expr} {names : List String} {recipe : Recipe}
    {clears : String → Prop} (reads : recipe.Reads names)
    (inputs : ∀ name ∈ names, ReportsDataCycle (input name) s (clears name) cyclic) :
    ReportsDataCycle (recipe.carryOut input) s (∀ name ∈ names, clears name) cyclic := by
  induction reads with
  | done => exact pure (by simp)
  | failed other => exact throw fun flows => absurd flows other
  | read _ ih =>
    rw [List.forall_mem_cons] at inputs ⊢
    exact inputs.1.bind fun e => ih e inputs.2

end ReportsDataCycle

namespace TranslationEnv

variable {env : TranslationEnv} {under : List NodeId}

theorem inputFrom_reportsDataCycle {build : NodeId → Node → String → Evaluate Expr} {node : NodeId}
    {input : String}
    (needs : ∀ source, env.Demands s node input source →
      ∀ x ∈ under, TransGen (env.Needs s) x source)
    (builds : ∀ {source origin} output, env.Demands s node input source →
      env.graph.node? source = some origin → source ∉ under →
      ReportsDataCycle (build source origin output) s (env.Grounded s source)
        (env.DependsOnItself s node input)) :
    ReportsDataCycle (env.inputFrom under build node input) s
      (∀ source, env.Demands s node input source → env.Grounded s source)
      (env.DependsOnItself s node input) := by
  have fails : ∀ {id message} {clear : Prop}, message.toList.head? ≠ some 'D' →
      ReportsDataCycle (throw (nodeError id message) : Evaluate Expr) s clear
        (env.DependsOnItself s node input) :=
    fun start => .throw fun flows => absurd flows (CompilerError.not_isDataCycle start)
  unfold inputFrom
  cases env.graph.node? node with
  | none => exact fails (by decide)
  | some n =>
  dsimp only
  cases n.input? input with
  | none => exact fails (by simp [toString])
  | some port =>
  dsimp only
  cases connected : env.graph.inputSource? node input with
  | none =>
    refine .ofExcept ?_ fun e failed =>
      CompilerError.not_isDataCycle (by simp [unconnectedInput_head failed])
    rintro source ⟨origin, port, found, -⟩
    exact absurd found (by simp [connected])
  | some pair =>
  obtain ⟨origin, sourcePort⟩ := pair
  have only : ∀ source, env.Demands s node input source → source = origin.id := by
    rintro _ ⟨_, _, found, -, rfl⟩
    rw [connected] at found
    cases found
    rfl
  refine .reading ?_
  cases held : s.bound.get? ⟨origin.id, sourcePort.name⟩ with
  | some name =>
    refine .pure ?_
    rintro source ⟨_, _, found, free, -⟩
    rw [connected] at found
    cases found
    exact absurd free (by simp [held])
  | none =>
  have demands : env.Demands s node input origin.id := ⟨origin, sourcePort, connected, held, rfl⟩
  dsimp only
  cases found : env.graph.node? origin.id with
  | none => exact fails (by decide)
  | some n' =>
  dsimp only
  split
  · exact fails (by simp [toString])
  by_cases guarded : origin.id ∈ under
  · simp only [guarded, List.contains_iff_mem, if_true]
    exact .throw fun _ => ⟨origin.id, origin.id, demands, .refl, needs _ demands _ guarded⟩
  · simp only [guarded, List.contains_iff_mem, if_false]
    refine (builds _ demands found guarded).mono (fun grounded source demanded => ?_) id
    obtain rfl := only source demanded
    exact grounded

/-- The evaluation of an input that is asked for guards against values that depend on themselves. -/
theorem inputWithin_reportsDataCycle (builtIn : env.graph.BuiltIn) {node : NodeId} {input : String}
    {d : Nat}
    (within : env.graph.WithinDepth (d + 1) under) (asked : env.Asked s under node input) :
    ReportsDataCycle (env.inputWithin d under node input) s
      (∀ source, env.Demands s node input source → env.Grounded s source)
      (env.DependsOnItself s node input) := by
  induction d generalizing under node input with
  | zero =>
    refine inputFrom_reportsDataCycle (fun _ => asked.needs) fun output _ found new => ?_
    exact absurd rfl (within.cons new (OrderedMap.mem_keys_of_get? found)).positive
  | succ d ih =>
    refine inputFrom_reportsDataCycle
      (fun _ => asked.needs) fun {source origin} output demands found new => ?_
    have deeper := within.cons new (OrderedMap.mem_keys_of_get? found)
    rw [valueOf_eq _ (builtIn found)]
    refine (ReportsDataCycle.carryOut (env.recipe_reads origin output) (fun name read =>
      (ih deeper (.deeper asked demands new found read)).mono id
        (.above demands found read))).mono (fun clears => ?_) id
    refine .of_needs ?_
    rintro next ⟨n, found', name, read, demanded⟩
    obtain rfl := Option.some.inj (found.symm.trans found')
    exact clears name read next demanded

end TranslationEnv

end ReportsDataCycle

/-- Whatever input is asked for, at any time, its evaluation ends by itself, and not because it runs
into a bound. It leaves the nodes whose values are being built as they were, whether it tells a value
or an error; it tells no value that depends on itself, and it fails because data flows back only if the
value does. -/
theorem inputExpr_guards_cycles (env : TranslationEnv) (builtIn : env.graph.BuiltIn)
    {s : TranslatorState} {under : List NodeId} {node : NodeId} {input : String}
    (asked : env.Asked s under node input) :
    ∃ result : Except CompilerError Expr,
      (∀ cut depth, env.graph.nodes.size < depth →
        (env.buildCut cut depth node input).run.run ⟨s, under.toFinset⟩ =
          (result, ⟨s, under.toFinset⟩)) ∧
      (env.inputWithin env.graph.nodes.size under node input).run.run s = (result, s) ∧
      (under = [] → (env.inputExpr node input).run.run s = (result, s)) ∧
      (∀ e, result = .ok e → ¬ env.DependsOnItself s node input) ∧
      (∀ e, result = .error e → e.IsDataCycle → env.DependsOnItself s node input) := by
  have room := asked.withinDepth (Nat.lt_succ_self _)
  have reports := TranslationEnv.inputWithin_reportsDataCycle builtIn room asked
  have told : (env.inputWithin env.graph.nodes.size under node input).run.run s =
      (((env.inputWithin env.graph.nodes.size under node input).run.run s).1, s) :=
    Prod.ext rfl reports.unchanged
  refine ⟨_, ?_, told, ?_, ?_, reports.cyclic⟩
  · intro cut depth enough
    exact (TranslationEnv.buildCut_mirrors builtIn cut (asked.withinDepth enough) room node input).2
  · rintro rfl
    exact told
  · intro e told
    exact TranslationEnv.not_dependsOnItself_iff.mpr (reports.clear e told)

/-- Two operators in a circle: each is applied to the value of the other. -/
def whirl : Graph :=
  let negation n := placed n (.unary .not) none []
    [.dataInput "Value" .unknown, .dataOutput "Result" .unknown]
  { Graph.empty "Whirl" with
    nodes := ⟨[negation 10, negation 20], by decide⟩
    edges := ⟨[wired 61 10 12 20 21, wired 62 20 22 10 11], by decide⟩ }

/-- While the value of the first operator is being built for the second one, it is not told. -/
theorem inputExpr_guards_cycles_whirl :
    let env : TranslationEnv := ⟨whirl, TypeDatabase.empty.toOracle, .standard, ∅⟩
    let s : TranslatorState := ⟨.empty, none, ∅, [], []⟩
    whirl.BuiltIn ∧ env.Asked s [⟨numbered 10⟩] ⟨numbered 10⟩ "Value" ∧
      env.DependsOnItself s ⟨numbered 10⟩ "Value" ∧
      ∃ e, (env.inputWithin whirl.nodes.size [⟨numbered 10⟩] ⟨numbered 10⟩ "Value").run.run s =
        (.error e, s) := by
  intro env s
  have builtIn : whirl.BuiltIn := Graph.BuiltIn.of_entries (by decide)
  have first : env.Demands s ⟨numbered 10⟩ "Value" ⟨numbered 20⟩ := ⟨_, _, rfl, rfl, rfl⟩
  have second : env.Demands s ⟨numbered 20⟩ "Value" ⟨numbered 10⟩ := ⟨_, _, rfl, rfl, rfl⟩
  have asked : env.Asked s [⟨numbered 10⟩] ⟨numbered 10⟩ "Value" := by
    obtain ⟨origin, found, same, read⟩ : ∃ origin, whirl.node? ⟨numbered 10⟩ = some origin ∧
        origin.id = ⟨numbered 10⟩ ∧ "Value" ∈ env.valueInputs origin := ⟨_, rfl, rfl, by decide⟩
    have deeper := TranslationEnv.Asked.deeper (.outset _ _) second List.not_mem_nil found read
    rwa [same] at deeper
  have forth : env.Needs s ⟨numbered 10⟩ ⟨numbered 20⟩ := ⟨_, rfl, "Value", by decide, first⟩
  have back : env.Needs s ⟨numbered 20⟩ ⟨numbered 10⟩ := ⟨_, rfl, "Value", by decide, second⟩
  have depends : env.DependsOnItself s ⟨numbered 10⟩ "Value" :=
    ⟨_, _, first, .refl, .tail (.single back) forth⟩
  refine ⟨builtIn, asked, depends, ?_⟩
  obtain ⟨result, -, told, -, clear, -⟩ := inputExpr_guards_cycles env builtIn asked
  cases result with
  | ok e => exact absurd depends (clear e rfl)
  | error e => exact ⟨e, told⟩

end NodeScript
