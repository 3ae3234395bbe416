import NodeScript.Proofs.Graph.Join
import NodeScript.Translation.Statement

/-!
Depths that bound the translation but never cut it short: going deeper passes nodes of the graph, and
none of them twice. So it does not matter what would be done where the depth is used up, nor how large
it is as long as it leaves room for all nodes.
-/

namespace NodeScript

namespace TranslationEnv

/-- One level of the translation of stacks, all that lies deeper being left to `deeper`. -/
def chainStep (env : TranslationEnv) (deeper : List NodeId → BranchTranslator)
    (path : List NodeId) : BranchTranslator := fun start stop => do
  if stop = some start then return []
  else if path.contains start then
    reportAt start "Execution flows back into this stack; use a loop node instead"
    return []
  else
    let (statements, next) ← translateStack env (deeper (start :: path)) start
    match next with
    | none => return statements
    | some next =>
      let others ← deeper (start :: path) next stop
      return statements ++ others

/-- The translation of stacks down to a depth, below which `cut` takes its place. -/
def chainCut (env : TranslationEnv) (cut : List NodeId → BranchTranslator) :
    (depth : Nat) → (path : List NodeId) → BranchTranslator
  | 0 => cut
  | depth + 1 => env.chainStep (env.chainCut cut depth)

/-- The values of inputs down to a depth, below which `cut` takes their place. -/
def inputCut (env : TranslationEnv) (cut : List NodeId → NodeId → String → Evaluate Expr) :
    (depth : Nat) → (under : List NodeId) → NodeId → String → Evaluate Expr
  | 0 => cut
  | depth + 1 => fun under => env.inputFrom under fun source origin output =>
    env.valueOf origin output (env.inputCut cut depth (source :: under) origin.id)

variable {env : TranslationEnv} {under path : List NodeId} {d d' : Nat}

theorem chainWithin_succ : env.chainWithin (d + 1) = env.chainStep (env.chainWithin d) := by
  funext path start stop
  rw [chainWithin]
  rfl

theorem chainStep_congr {deeper deeper' : List NodeId → BranchTranslator}
    (same : ∀ start ∈ env.graph.nodes.keys, start ∉ path →
      deeper (start :: path) = deeper' (start :: path)) :
    env.chainStep deeper path = env.chainStep deeper' path := by
  funext start stop
  unfold chainStep
  split
  · rfl
  split
  · rfl
  rename_i new
  cases found : env.graph.node? start with
  | none =>
    -- a stack that is not in the graph leads nowhere
    simp only [translateStack, found]
    rfl
  | some n =>
    have outside : start ∉ path := by simpa using new
    simp only [same start (OrderedMap.mem_keys_of_get? found) outside]

theorem inputFrom_congr {build build' : NodeId → Node → String → Evaluate Expr}
    (same : ∀ {source origin} output, env.graph.node? source = some origin → source ∉ under →
      build source origin output = build' source origin output) :
    env.inputFrom under build = env.inputFrom under build' := by
  funext node input
  unfold inputFrom
  split
  · rfl
  split
  · rfl
  split
  · rfl
  refine bind_congr fun s => ?_
  split
  · rfl
  split
  · rfl
  rename_i found
  split
  · rfl
  split
  · rfl
  · rename_i outside
    exact same _ found (by simpa using outside)

/-- The translation of stacks is never cut where it may still come to all nodes. The induction is on
the depth, the other depth being taken apart alongside. -/
theorem chainCut_eq (cut : List NodeId → BranchTranslator) (within : env.graph.WithinDepth d path)
    (within' : env.graph.WithinDepth d' path) :
    env.chainCut cut d path = env.chainWithin d' path := by
  induction d generalizing d' path with
  | zero => exact absurd rfl within.positive
  | succ d ih =>
    obtain ⟨d', rfl⟩ := Nat.exists_eq_succ_of_ne_zero within'.positive
    rw [chainCut, chainWithin_succ]
    refine chainStep_congr fun start node outside => ?_
    exact ih (within.cons outside node) (within'.cons outside node)

theorem inputCut_eq (cut : List NodeId → NodeId → String → Evaluate Expr)
    (within : env.graph.WithinDepth d under) (within' : env.graph.WithinDepth (d' + 1) under) :
    env.inputCut cut d under = env.inputWithin d' under := by
  induction d generalizing d' under with
  | zero => exact absurd rfl within.positive
  | succ d ih =>
    cases d' with
    | zero =>
      rw [inputCut, inputWithin]
      refine inputFrom_congr fun _ found outside => ?_
      exact absurd rfl (within'.cons outside (OrderedMap.mem_keys_of_get? found)).positive
    | succ d' =>
      rw [inputCut, inputWithin]
      refine inputFrom_congr fun output found outside => ?_
      have node := OrderedMap.mem_keys_of_get? found
      rw [ih (within.cons outside node) (within'.cons outside node)]

/-- The translation of the stacks from one on comes to its end: none of its recursions ever gets to
where its bound would cut it. -/
structure ComesToEnd (env : TranslationEnv) (start : NodeId) : Prop where
  chains : ∀ cut depth, env.graph.nodes.size < depth →
    env.chainCut cut depth [] start none = env.functionBody start
  values : ∀ cut depth, env.graph.nodes.size < depth → env.inputCut cut depth [] = env.inputExpr
  joins : ∀ stack, env.graph.SearchEnds stack

theorem comesToEnd (env : TranslationEnv) (start : NodeId) : env.ComesToEnd start where
  chains cut depth enough := by
    rw [chainCut_eq cut (.of_lt enough) (.of_lt (Nat.lt_succ_self _)), functionBody]
  values cut depth enough := inputCut_eq cut (.of_lt enough) (.of_lt (Nat.lt_succ_self _))
  joins stack := ⟨env.graph.sureReach_run stack, env.graph.distances_run stack⟩

end TranslationEnv

end NodeScript
