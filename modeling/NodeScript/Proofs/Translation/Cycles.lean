import NodeScript.Proofs.Translation.Backflow
import NodeScript.Proofs.Translation.Depth
import NodeScript.Proofs.Translation.Functions
import NodeScript.Typing.TypeDatabase

/-!
Cycles of execution: the translation of a function comes to its end, and it reports that execution
flows back exactly if a stack that the function comes to is linked back to itself.
-/

namespace NodeScript

open Relation
open NodeScript.Graph (placed wired numbered KeepsOff)

section Parts

variable {env : TranslationEnv} {cycle : Prop}

theorem translateVariables_reportsBackflow (env : TranslationEnv) (function : NodeId)
    (vars : List VariableDecl) :
    ReportsBackflow (translateVariables env function vars) (fun _ => True) cycle fun _ => True := by
  induction vars with
  | nil => exact .pure trivial trivial
  | cons v rest ih =>
    unfold translateVariables
    split
    · split
      · refine ReportsBackflow.bind (ReportsBackflow.report (nodeError_aboutValues ?_))
          fun _ _ => ?_
        · simp [VariableDecl.unknownType, toString]
        · exact ih.mono (fun _ _ => trivial) fun _ _ _ _ => trivial
      · refine ReportsBackflow.bind (ReportsBackflow.modify fun _ => rfl) fun _ _ => ?_
        refine ReportsBackflow.bind ih fun (parameters, locals) _ => ?_
        cases v.scope with
        | field | «local» => exact .pure trivial fun _ _ => trivial
        | parameter => exact .pure trivial fun _ _ => trivial
    · exact ih

theorem translateReturnType_reportsBackflow (env : TranslationEnv) (function : NodeId)
    (decl : FunctionDecl) :
    ReportsBackflow (translateReturnType env function decl) (fun _ => True) cycle
      fun _ => True := by
  unfold translateReturnType
  split
  · exact .pure trivial trivial
  split
  · exact .pure trivial trivial
  · refine ReportsBackflow.bind (ReportsBackflow.report (nodeError_aboutValues ?_)) fun _ _ => ?_
    · simp [toString]
    · exact .pure trivial fun _ => trivial

theorem fileMethod_reportsBackflow (function : NodeId) (decl : FunctionDecl) (method : MethodDecl) :
    ReportsBackflow (fileMethod function decl method) (fun _ => True) cycle fun _ => True := by
  intro s
  rcases fileMethod_cases function decl method s with ⟨_, _, same, _⟩ | ⟨e, about, added⟩
  · exact ⟨[], by rw [same, List.append_nil], trivial, by simp, fun _ => trivial⟩
  · refine ⟨[e], added, trivial, ?_, fun _ => trivial⟩
    rintro ⟨e', member, flows⟩
    obtain rfl := List.mem_singleton.mp member
    exact absurd flows about.not_isBackflow

end Parts

theorem translateFunction_reportsBackflow {env : TranslationEnv} {denv : DefinitionEnv}
    (standard : env.graph.Standard denv) {function : NodeId}
    (enters : env.graph.EntersStacks function) (decl : FunctionDecl) :
    ReportsBackflow (translateFunction env function decl) (fun _ => True)
      (env.graph.FlowsBack function)
      fun _ => ¬ env.graph.FlowsBack function := by
  rw [translateFunction_eq]
  have body : ReportsBackflow (env.functionBody function) (fun _ => True)
      (env.graph.FlowsBack function)
      fun _ => ¬ env.graph.FlowsBack function := by
    refine (env.chainWithin_reportsBackflow standard enters
      (.of_lt (Nat.lt_succ_self _)) function none
      .of_origin).mono (fun _ _ => trivial) fun _ _ keeps => ?_
    rintro ⟨x, reach, back⟩
    exact KeepsOff.iff_no_cycle.mp keeps x reach back
  have method : ReportsBackflow (functionMethod env function decl) (fun _ => True)
      (env.graph.FlowsBack function) fun _ => ¬ env.graph.FlowsBack function := by
    refine ReportsBackflow.bind (ReportsBackflow.modify fun _ => rfl) fun _ _ => ?_
    refine (translateVariables_reportsBackflow env function _).bind fun (parameters, locals) _ => ?_
    refine body.bind fun statements _ => ?_
    refine (translateReturnType_reportsBackflow env function decl).bind fun returnType _ => ?_
    exact .pure trivial fun _ clear _ _ => clear
  refine method.bind fun method _ => ?_
  exact (fileMethod_reportsBackflow function decl method).mono
    (fun _ _ => trivial) fun _ _ _ clear => clear

/-- The translation of a function comes to its end. It reports that execution flows back exactly if a
stack that is linked back to itself is come to from the function. -/
theorem translateFunction_backflow (env : TranslationEnv) (denv : DefinitionEnv)
    (standard : env.graph.Standard denv) (function : NodeId)
    (enters : env.graph.EntersStacks function) (decl : FunctionDecl) (s : TranslatorState) :
    env.ComesToEnd function ∧ ∃ reported,
      ((translateFunction env function decl).run s).2.context.errors =
        s.context.errors ++ reported ∧
      ((∃ e ∈ reported, e.IsBackflow) ↔
        ∃ x, ReflTransGen env.graph.LinksTo function x ∧ TransGen env.graph.LinksTo x x) := by
  obtain ⟨reported, errors, -, back, clears⟩ :=
    translateFunction_reportsBackflow standard enters decl s
  refine ⟨env.comesToEnd function, reported, errors, back, fun cycle => ?_⟩
  by_contra none
  push Not at none
  exact clears none cycle

/-- A function that leads into two stacks, which go on in a circle. -/
def carousel : Graph :=
  let stackPorts := [PortSpec.execInput "In", .execOutput "Out"]
  { Graph.empty "Carousel" with
    nodes := ⟨
      [placed 10 (.function (.onEvent .start)) none [] [.execOutput "Out"],
        placed 20 .stack none [] stackPorts,
        placed 30 .stack none [] stackPorts], by decide⟩
    edges := ⟨[wired 61 10 11 20 21, wired 62 20 22 30 31, wired 63 30 32 20 21], by decide⟩ }

/-- The circle is reported. -/
theorem translateFunction_backflow_carousel :
    let env : TranslationEnv := ⟨carousel, TypeDatabase.empty.toOracle, .standard, ∅⟩
    let s : TranslatorState := ⟨.empty, none, ∅, [], []⟩
    carousel.Standard ⟨env.oracle, ∅⟩ ∧ carousel.EntersStacks ⟨numbered 10⟩ ∧
      ∃ e ∈ ((translateFunction env ⟨numbered 10⟩ (.onEvent .start)).run s).2.context.errors,
        e.IsBackflow := by
  have standard : carousel.Standard ⟨TypeDatabase.empty.toOracle, ∅⟩ := .of_entries (by decide)
  have enters : carousel.EntersStacks ⟨numbered 10⟩ :=
    Graph.EntersStacks.of_entries (by decide)
  have first : carousel.LinksTo ⟨numbered 10⟩ ⟨numbered 20⟩ := .inl (by decide)
  have second : carousel.LinksTo ⟨numbered 20⟩ ⟨numbered 30⟩ := .inl (by decide)
  have third : carousel.LinksTo ⟨numbered 30⟩ ⟨numbered 20⟩ := .inl (by decide)
  refine ⟨standard, enters, ?_⟩
  obtain ⟨-, reported, errors, exactly⟩ := translateFunction_backflow
    ⟨carousel, TypeDatabase.empty.toOracle, .standard, ∅⟩ _ standard ⟨numbered 10⟩ enters
    (.onEvent .start) ⟨.empty, none, ∅, [], []⟩
  rw [errors]
  exact exactly.mpr ⟨_, .single first, .tail (.single second) third⟩

/-- The stacks that a stack is linked to. -/
def Graph.linkTargets (g : Graph) (s : NodeId) : List NodeId :=
  (g.successors s).filterMap id ++
    (g.loopsBefore (g.children s)).filterMap fun n => g.execTarget? n.id "Body"

theorem Graph.mem_linkTargets {g : Graph} {s t : NodeId} : t ∈ g.linkTargets s ↔ g.LinksTo s t := by
  simp [linkTargets, LinksTo]

/-- A function that leads into an operator, which holds a choice that leads back into it. -/
def burrow : Graph :=
  { Graph.empty "Burrow" with
    nodes := ⟨
      [placed 10 (.function (.onEvent .start)) none [] [.execOutput "Out"],
        placed 20 (.unary .not) none [⟨numbered 30⟩] [.dataInput "Value" .unknown,
          .dataOutput "Result" .unknown],
        placed 30 .branch (some ⟨numbered 20⟩) []
          [.dataInput "Condition" .bool, .execOutput "Then", .execOutput "Else"]], by decide⟩
    edges := ⟨[wired 61 10 11 20 21, wired 62 30 32 20 21], by decide⟩ }

/-- A function that leads into a stack whose choice leads into two operators; each of them holds a
choice that leads back into the stack by both ways. -/
def mirage : Graph :=
  let choicePorts := [PortSpec.dataInput "Condition" .bool, .execOutput "Then", .execOutput "Else"]
  let operatorPorts := [PortSpec.dataInput "Value" .unknown, .dataOutput "Result" .unknown]
  { Graph.empty "Mirage" with
    nodes := ⟨
      [placed 10 (.function (.onEvent .start)) none [] [.execOutput "Out"],
        placed 20 .stack none [⟨numbered 30⟩] [.execInput "In", .execOutput "Out"],
        placed 30 .branch (some ⟨numbered 20⟩) [] choicePorts,
        placed 40 (.unary .not) none [⟨numbered 50⟩] operatorPorts,
        placed 50 .branch (some ⟨numbered 40⟩) [] choicePorts,
        placed 60 (.unary .not) none [⟨numbered 70⟩] operatorPorts,
        placed 70 .branch (some ⟨numbered 60⟩) [] choicePorts], by decide⟩
    edges := ⟨[wired 81 10 11 20 21, wired 82 30 32 40 41, wired 83 30 33 60 61,
      wired 84 50 52 20 21, wired 85 50 53 20 21, wired 86 70 72 20 21, wired 87 70 73 20 21],
      by decide⟩ }

/-- What is reported of a function of a graph that is without types and extensions. -/
def Graph.reported (g : Graph) (function : NodeId) (decl : FunctionDecl) : List CompilerError :=
  ((translateFunction ⟨g, TypeDatabase.empty.toOracle, .standard, ∅⟩ function decl).run
    ⟨.empty, none, ∅, [], []⟩).2.context.errors

/-- The relation by which only stacks are linked to others. -/
def Graph.StackLinksTo (g : Graph) (s t : NodeId) : Prop :=
  g.LinksTo s t ∧ ∃ n, g.node? s = some n ∧ n.kind.isStack = true

/-- Where execution is led into a node that holds others without being a stack, a cycle through that
node is not reported; and a cycle is reported, though only stacks are on the path, where the join of
a choice was looked for through such nodes. -/
theorem translateFunction_backflow_misled :
    (burrow.Standard ⟨TypeDatabase.empty.toOracle, ∅⟩ ∧
      (∃ x, ReflTransGen burrow.LinksTo ⟨numbered 10⟩ x ∧ TransGen burrow.LinksTo x x) ∧
      ∀ e ∈ burrow.reported ⟨numbered 10⟩ (.onEvent .start), ¬ e.IsBackflow) ∧
    (mirage.Standard ⟨TypeDatabase.empty.toOracle, ∅⟩ ∧
      (¬ ∃ x, ReflTransGen mirage.StackLinksTo ⟨numbered 10⟩ x ∧
        TransGen mirage.StackLinksTo x x) ∧
      ∃ e ∈ mirage.reported ⟨numbered 10⟩ (.onEvent .start), e.IsBackflow) := by
  refine ⟨⟨.of_entries (by decide), ?_, ?_⟩, .of_entries (by decide), ?_, ?_⟩
  · have enters : burrow.LinksTo ⟨numbered 10⟩ ⟨numbered 20⟩ := .inl (by decide)
    have returns : burrow.LinksTo ⟨numbered 20⟩ ⟨numbered 20⟩ := .inl (by decide)
    exact ⟨_, .single enters, .single returns⟩
  · have all : burrow.reported ⟨numbered 10⟩ (.onEvent .start) =
        [nodeError ⟨numbered 20⟩ "`Not` is not a stack"] := by cbv
    rw [all]
    simp [nodeError, CompilerError.translation, CompilerError.IsBackflow]
  · rintro ⟨x, -, cycle⟩
    have rises : ∀ {s t}, mirage.StackLinksTo s t → s.uuid.bits.toNat < t.uuid.bits.toNat := by
      rintro s t ⟨link, n, found, stack⟩
      have all : ∀ entry ∈ mirage.nodes.entries, entry.2.kind.isStack = true →
          ∀ t ∈ mirage.linkTargets entry.1, entry.1.uuid.bits.toNat < t.uuid.bits.toNat := by decide
      exact all (s, n) (OrderedMap.get?_eq_some_iff.mp found) stack t (Graph.mem_linkTargets.mpr link)
    have : ∀ {s t}, TransGen mirage.StackLinksTo s t → s.uuid.bits.toNat < t.uuid.bits.toNat := by
      intro s t path
      induction path with
      | single step => exact rises step
      | tail _ step ih => exact ih.trans (rises step)
    exact Nat.lt_irrefl _ (this cycle)
  · have all : mirage.reported ⟨numbered 10⟩ (.onEvent .start) =
        [nodeError ⟨numbered 40⟩ "`Not` is not a stack",
        nodeError ⟨numbered 60⟩ "`Not` is not a stack",
        nodeError ⟨numbered 20⟩ "Execution flows back into this stack; use a loop node instead"] := by
      cbv
    rw [all]
    exact ⟨nodeError _ _, .tail _ (.tail _ (.head _)), rfl⟩

end NodeScript
