import Mathlib
import NodeScript.Proofs.Graph.Join
import NodeScript.Proofs.Translation.Assembly
import NodeScript.Proofs.Translation.Execution
import NodeScript.Typing.TypeDatabase

/-!
Methods of several functions, executed. The functions of a method are executed in their order as long
as none is left. The first that is left takes the method with it, and those behind it are never
reached, although leaving a function is meant to end nothing but the function.
-/

namespace NodeScript

open NodeScript.Graph (placed wired numbered)

namespace Outcome

/-- Executions one after the other, up to the first that comes to rest before its end. -/
def inTurn : List (List Int64 → Outcome) → List Int64 → Outcome
  | [], decisions => idle decisions
  | first :: rest, decisions => (first decisions).andThen (inTurn rest)

/-- Where an execution was left, what is behind it may go on. -/
def resumed (o : Outcome) : Outcome :=
  if o.ending = .left then { o with ending := .finished } else o

/-- Executions one after the other, where leaving one ends nothing but this one. -/
def each (runs : List (List Int64 → Outcome)) : List Int64 → Outcome :=
  inTurn (runs.map fun run decisions => (run decisions).resumed)

variable {o : Outcome} {decisions : List Int64} {next next' : List Int64 → Outcome}

theorem behind_behind (o : Outcome) (before later : List NodeId) :
    (o.behind later).behind before = o.behind (before ++ later) := by
  simp only [behind, List.append_assoc]

theorem andThen_of_finished (finished : o.ending = .finished) :
    o.andThen next = (next o.rest).behind o.visited := by
  unfold andThen
  rw [finished]

theorem andThen_of_ne (ends : o.ending ≠ .finished) : o.andThen next = o := by
  unfold andThen
  split
  · rename_i finished
    exact absurd finished ends
  · rfl

theorem behind_andThen (o : Outcome) (before : List NodeId) :
    (o.behind before).andThen next = (o.andThen next).behind before := by
  by_cases finished : o.ending = .finished
  · rw [andThen_of_finished finished, behind_behind]
    exact andThen_of_finished finished
  · rw [andThen_of_ne finished]
    exact andThen_of_ne finished

theorem andThen_assoc :
    (o.andThen next).andThen next' = o.andThen fun rest => (next rest).andThen next' := by
  by_cases finished : o.ending = .finished
  · rw [andThen_of_finished finished, andThen_of_finished finished, behind_andThen]
  · rw [andThen_of_ne finished, andThen_of_ne finished, andThen_of_ne finished]

theorem resumed_of_ne (stays : o.ending ≠ .left) : o.resumed = o := if_neg stays

theorem resumed_behind (o : Outcome) (before : List NodeId) :
    (o.behind before).resumed = o.resumed.behind before := by
  rw [resumed, resumed, apply_ite (behind · before)]
  rfl

variable {runs before after : List (List Int64 → Outcome)} {run : List Int64 → Outcome}

/-- As long as nothing is left, it makes no difference what leaving ends. -/
theorem inTurn_of_not_left (stays : (inTurn runs decisions).ending ≠ .left) :
    inTurn runs decisions = each runs decisions := by
  induction runs generalizing decisions with
  | nil => rfl
  | cons first rest ih =>
    change ((first decisions).andThen (inTurn rest)).ending ≠ .left at stays
    change (first decisions).andThen (inTurn rest) = (first decisions).resumed.andThen (each rest)
    by_cases finished : (first decisions).ending = .finished
    · have on : (first decisions).resumed = first decisions := resumed_of_ne (by simp [finished])
      rw [andThen_of_finished finished] at stays ⊢
      rw [on, andThen_of_finished finished, ih stays]
    · rw [andThen_of_ne finished] at stays ⊢
      rw [resumed_of_ne stays, andThen_of_ne finished]

/-- Where something is left, everything before it was executed to its end, it is the last that is
executed, and only if leaving ended nothing else what is behind it would be executed too. -/
theorem inTurn_left (left : (inTurn runs decisions).ending = .left) :
    ∃ before run after, runs = before ++ run :: after ∧
      (inTurn before decisions).ending = .finished ∧
      inTurn runs decisions = (inTurn before decisions).andThen run ∧
      each runs decisions = (inTurn runs decisions).resumed.andThen (each after) := by
  induction runs generalizing decisions with
  | nil => exact nomatch left
  | cons first rest ih =>
    change ((first decisions).andThen (inTurn rest)).ending = .left at left
    change ∃ before run after, first :: rest = before ++ run :: after ∧
      (inTurn before decisions).ending = .finished ∧
      (first decisions).andThen (inTurn rest) = (inTurn before decisions).andThen run ∧
      (first decisions).resumed.andThen (each rest) =
        ((first decisions).andThen (inTurn rest)).resumed.andThen (each after)
    by_cases finished : (first decisions).ending = .finished
    · rw [andThen_of_finished finished] at left ⊢
      obtain ⟨before, run, after, rfl, passed, here, behind⟩ := ih left
      refine ⟨first :: before, run, after, rfl, ?_, ?_, ?_⟩
      · exact (congrArg ending (andThen_of_finished finished)).trans passed
      · change _ = ((first decisions).andThen (inTurn before)).andThen run
        rw [andThen_of_finished finished, behind_andThen, here]
      · have on : (first decisions).resumed = first decisions := resumed_of_ne (by simp [finished])
        rw [on, andThen_of_finished finished, behind, resumed_behind, behind_andThen]
    · rw [andThen_of_ne finished] at left ⊢
      exact ⟨[], first, rest, rfl, rfl, rfl, rfl⟩

end Outcome

theorem Stmt.runAll_append (a b : List Stmt) (decisions : List Int64) :
    Stmt.runAll (a ++ b) decisions = (Stmt.runAll a decisions).andThen (Stmt.runAll b) := by
  induction a generalizing decisions with
  | nil => rfl
  | cons s rest ih =>
    rw [List.cons_append, Stmt.runAll, Stmt.runAll, Outcome.andThen_assoc]
    congr 1
    exact funext ih

/-- The execution of a part by itself. -/
def FunctionPart.run (p : FunctionPart) : List Int64 → Outcome := Stmt.runAll p.method.body

/-- Bodies that stand one after the other are executed in turn. -/
theorem Stmt.runAll_flatMap (parts : List FunctionPart) (decisions : List Int64) :
    Stmt.runAll (parts.flatMap (·.method.body)) decisions =
      Outcome.inTurn (parts.map FunctionPart.run) decisions := by
  induction parts generalizing decisions with
  | nil => rfl
  | cons p rest ih =>
    rw [List.flatMap_cons, Stmt.runAll_append, List.map_cons, Outcome.inTurn]
    congr 1
    exact funext ih

/-- Subscriptions are executed to their end and take no decisions. -/
theorem TranslationEnv.runAll_subscriptionsOf (env : TranslationEnv) (trace : Option TraceRecord)
    (name : String) (decisions : List Int64) :
    Stmt.runAll (env.subscriptionsOf trace name) decisions =
      (Outcome.idle decisions).behind ((env.subscriptionsOf trace name).filterMap Stmt.origin) := by
  have effects : ∀ s ∈ env.subscriptionsOf trace name, ∃ node value,
      s = .effect (some node) value := fun s inside => effect_of_mem_subscriptionsOf inside
  generalize env.subscriptionsOf trace name = stmts at effects
  induction stmts with
  | nil => rfl
  | cons s rest ih =>
    obtain ⟨node, value, rfl⟩ := effects s (.head _)
    have later := ih fun s inside => effects s (.tail _ inside)
    rw [Stmt.runAll, Stmt.run, Outcome.behind_andThen, Outcome.andThen_of_finished rfl]
    change ((Stmt.runAll rest decisions).behind []).behind [node] = _
    rw [later]
    rfl

/-- A method executes its functions in the order of the graph, behind the subscriptions. As long as
none of them is left this is the execution of them all; if one is left, those behind it are not
executed, while they would be if leaving a function ended this function only. -/
theorem TranslationEnv.method_executes (env : TranslationEnv)
    (fileNothing : env.ExtensionsFileNothing)
    (trace : Option TraceRecord) (clean : (env.translate trace).errors = []) (m : MethodDecl)
    (emitted : m ∈ (env.translate trace).unit.classDecl.methods) (decisions : List Int64) :
    let parts := env.partsOf trace m.name
    let inTurn := fun parts => Outcome.inTurn (parts.map FunctionPart.run)
    let each := fun parts => Outcome.each (parts.map FunctionPart.run)
    let subscribers := (env.subscriptionsOf trace m.name).filterMap Stmt.origin
    parts.map (fun p => (p.function, p.decl)) =
        (env.graph.functions.filter fun f => sanitize f.2.methodName = m.name) ∧
      Stmt.runAll m.body decisions = (inTurn parts decisions).behind subscribers ∧
      ((inTurn parts decisions).ending ≠ .left →
        inTurn parts decisions = each parts decisions) ∧
      ((inTurn parts decisions).ending = .left →
        ∃ before p after, parts = before ++ p :: after ∧
          (inTurn before decisions).ending = .finished ∧
          inTurn parts decisions = (inTurn before decisions).andThen p.run ∧
          each parts decisions = (inTurn parts decisions).resumed.andThen (each after)) := by
  refine ⟨env.partsOf_functions trace m.name, ?_, Outcome.inTurn_of_not_left, fun left => ?_⟩
  · rw [(env.assembles fileNothing clean emitted).body, Stmt.runAll_append,
      env.runAll_subscriptionsOf, Outcome.behind_andThen, Outcome.andThen_of_finished rfl,
      Stmt.runAll_flatMap]
    rfl
  · obtain ⟨_, _, _, split, passed, here, behind⟩ := Outcome.inTurn_left left
    obtain ⟨before, others, parts, rfl, later⟩ := List.map_eq_append_iff.mp split
    obtain ⟨p, after, rfl, rfl, rfl⟩ := List.map_eq_cons_iff.mp later
    exact ⟨before, p, after, parts, passed, here, behind⟩

/-- Two functions for every frame: one leaves at once, one repeats nothing while a condition holds. -/
def relay : Graph :=
  { Graph.empty "Relay" with
    nodes := ⟨
      [placed 10 (.function (.onEvent .update)) none [⟨numbered 20⟩] [.execOutput "Out"],
        placed 20 .leave (some ⟨numbered 10⟩) [] [],
        placed 30 (.function (.onEvent .update)) none [⟨numbered 40⟩] [.execOutput "Out"],
        placed 40 .repeated (some ⟨numbered 30⟩) [] [.dataInput "Condition" .bool,
          .execOutput "Body"]], by decide⟩ }

def relayEnv : TranslationEnv := ⟨relay, TypeDatabase.empty.toOracle, .standard, ∅⟩

/-- The first function of the relay is left, and the second behind it is not executed. -/
theorem TranslationEnv.method_executes_relay :
    relayEnv.ExtensionsFileNothing ∧ (relayEnv.translate none).errors = [] ∧
    ∃ m ∈ (relayEnv.translate none).unit.classDecl.methods,
      Stmt.runAll m.body [0] =
          (Outcome.inTurn ((relayEnv.partsOf none m.name).map FunctionPart.run) [0]).behind
            ((relayEnv.subscriptionsOf none m.name).filterMap Stmt.origin) ∧
      ∃ before p after, relayEnv.partsOf none m.name = before ++ p :: after ∧
        Outcome.inTurn ((relayEnv.partsOf none m.name).map FunctionPart.run) [0] =
          (Outcome.inTurn (before.map FunctionPart.run) [0]).andThen p.run := by
  have builtIn : relay.BuiltIn := Graph.BuiltIn.of_entries (by decide)
  have clean : (relayEnv.translate none).errors = [] := by decide +kernel
  have names : (relayEnv.translate none).unit.classDecl.methods.map (·.name) = ["Update"] := by
    decide +kernel
  obtain ⟨m, only, named⟩ := List.map_eq_singleton_iff.mp names
  have emitted : m ∈ (relayEnv.translate none).unit.classDecl.methods :=
    only ▸ List.mem_singleton_self m
  obtain ⟨-, execution, -, left⟩ :=
    method_executes relayEnv builtIn.extensionsFileNothing none clean m emitted [0]
  have leaves : (Outcome.inTurn ((relayEnv.partsOf none "Update").map FunctionPart.run) [0]).ending =
      .left := by decide +kernel
  obtain ⟨before, p, after, split, -, last, -⟩ := left (named ▸ leaves)
  exact ⟨builtIn.extensionsFileNothing, clean, m, emitted, execution, before, p, after, split, last⟩

/-- The second function for every frame is never executed, while it would be if leaving the first
ended the first only. -/
theorem TranslationEnv.method_executes_interrupted :
    (relayEnv.translate none).errors = [] ∧
    ∃ m ∈ (relayEnv.translate none).unit.classDecl.methods,
      (relayEnv.partsOf none m.name).map (·.function) = [⟨numbered 10⟩, ⟨numbered 30⟩] ∧
      (Stmt.runAll m.body [0]).visited = [⟨numbered 20⟩] ∧
      (Outcome.each ((relayEnv.partsOf none m.name).map FunctionPart.run) [0]).visited =
        [⟨numbered 20⟩, ⟨numbered 40⟩] := by
  have methods : (relayEnv.translate none).unit.classDecl.methods.map
      (fun m => (m.name, (Stmt.runAll m.body [0]).visited)) = [("Update", [⟨numbered 20⟩])] := by
    decide +kernel
  obtain ⟨m, only, told⟩ := List.map_eq_singleton_iff.mp methods
  obtain ⟨named, visited⟩ := Prod.mk.inj told
  refine ⟨by decide +kernel, m, only ▸ List.mem_singleton_self m, ?_, visited, ?_⟩
  · rw [named]
    decide +kernel
  · rw [named]
    decide +kernel

end NodeScript
