import Mathlib
import NodeScript.Proofs.Translation.Simulation
import NodeScript.Proofs.Translation.Stacks
import NodeScript.Typing.TypeDatabase

/-!
Control flow through the translation: what is emitted for a function executes what the graph does.
-/

namespace NodeScript

open NodeScript.Graph (placed wired numbered)

/-- Without tracing, what is emitted for the stacks of a function if nothing is reported. -/
theorem TranslationEnv.functionBody_emits {env : TranslationEnv} {denv : DefinitionEnv}
    (standard : env.graph.Standard denv) (start : NodeId) {s : TranslatorState}
    (untraced : s.trace = none)
    (clean : ((env.functionBody start).run s).2.context.errors = s.context.errors) :
    env.graph.Emits [] none (.way (some start)) ((env.functionBody start).run s).1 := by
  have within : env.graph.WithinDepth (env.graph.nodes.size + 1) [] := .of_lt (Nat.lt_succ_self _)
  exact (env.chainWithin_holdsUnlessErrors standard _ within start none s untraced).2.2 clean

/-- The statements of a function that is translated without errors and without tracing execute the
same nodes in the same order as the graph from the function on, come to rest in the same way, and
take the same decisions; and the graph comes to rest. -/
theorem TranslationEnv.functionBody_executes (env : TranslationEnv) (denv : DefinitionEnv)
    (standard : env.graph.Standard denv) (start : NodeId) (s : TranslatorState)
    (untraced : s.trace = none)
    (clean : ((env.functionBody start).run s).2.context.errors = s.context.errors)
    (decisions : List Int64) (o : Outcome) :
    Walker.Ends env.graph (.start start decisions) o ↔
      o = Stmt.runAll ((env.functionBody start).run s).1 decisions :=
  (env.functionBody_emits standard start untraced clean).ends_iff standard decisions o

/-- A function that chooses between a stack with a loop and an empty one, which meet again in a stack
that leaves the function. The body of the loop leaves it too. -/
def patrol : Graph :=
  let stackPorts := [PortSpec.execInput "In", .execOutput "Out"]
  { Graph.empty "Patrol" with
    nodes := ⟨
      [placed 10 (.function (.onEvent .start)) none [⟨numbered 20⟩] [.execOutput "Out"],
        placed 20 .branch (some ⟨numbered 10⟩) []
          [.dataInput "Condition" .bool, .execOutput "Then", .execOutput "Else"],
        placed 30 .stack none [⟨numbered 70⟩] stackPorts,
        placed 40 .stack none [] stackPorts,
        placed 50 .stack none [⟨numbered 90⟩] stackPorts,
        placed 70 .repeated (some ⟨numbered 30⟩) [] [.dataInput "Condition" .bool,
          .execOutput "Body"],
        placed 80 .loopStack none [⟨numbered 91⟩] [.execInput "In"],
        placed 90 .leave (some ⟨numbered 50⟩) [] [],
        placed 91 .leave (some ⟨numbered 80⟩) [] []], by decide⟩
    edges := ⟨[wired 61 20 22 30 31, wired 62 20 23 40 41, wired 63 30 32 50 51,
      wired 64 40 42 50 51, wired 65 70 72 80 81], by decide⟩ }

/-- The patrol takes its first branch and is left in the first round of the loop. -/
theorem TranslationEnv.functionBody_executes_patrol :
    let env : TranslationEnv := ⟨patrol, TypeDatabase.empty.toOracle, .standard, ∅⟩
    let start : NodeId := ⟨numbered 10⟩
    let s : TranslatorState := ⟨.empty, none, ∅, [], []⟩
    patrol.Standard ⟨env.oracle, ∅⟩ ∧ s.trace = none ∧
      ((env.functionBody start).run s).2.context.errors = s.context.errors ∧
      Walker.Ends patrol (.start start [1, 1])
        ⟨[⟨numbered 20⟩, ⟨numbered 70⟩, ⟨numbered 91⟩], .left, []⟩ := by
  have standard : patrol.Standard ⟨TypeDatabase.empty.toOracle, ∅⟩ := .of_entries (by decide)
  have clean : ((TranslationEnv.functionBody ⟨patrol, TypeDatabase.empty.toOracle, .standard, ∅⟩
      ⟨numbered 10⟩).run ⟨.empty, none, ∅, [], []⟩).2.context.errors = [] := by cbv
  refine ⟨standard, rfl, clean, ?_⟩
  exact (functionBody_executes ⟨patrol, TypeDatabase.empty.toOracle, .standard, ∅⟩ _ standard _
    ⟨.empty, none, ∅, [], []⟩ rfl clean _ _).mpr (by cbv)

end NodeScript
