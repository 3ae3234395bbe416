import Mathlib.Logic.Relation
import NodeScript.Proofs.Graph.Join
import NodeScript.Proofs.Graph.Ports
import NodeScript.Proofs.Translation.Execution

/-!
Statements emitted for a graph. Paths are cut at a stop: what lies behind a stop is looked at once, from
the stop on; so if what lies before it and what lies behind it keep off a set of stacks, then so does
all of it. Every stack that is passed puts itself on the path, and no stack is emitted under itself;
so what is emitted without a stop cannot come back to a stack.
-/

namespace NodeScript

namespace Graph

open Relation

variable {r : NodeId → NodeId → Prop} {path : List NodeId} {stop : Option NodeId}
  {s t x : NodeId}

/-- Steps that do not start from the stop. -/
def Before (r : NodeId → NodeId → Prop) (stop : Option NodeId) (s t : NodeId) : Prop :=
  stop ≠ some s ∧ r s t

/-- What is reached before one stop is reached before another, or from that other. -/
theorem reach_split (join : Option NodeId) (reach : ReflTransGen (Before r stop) s x) :
    ReflTransGen (Before r join) s x ∨
      ∃ j, join = some j ∧ ReflTransGen (Before r stop) j x := by
  induction reach with
  | refl => exact .inl .refl
  | @tail y z _ step ih =>
    rcases ih with before | ⟨j, atJ, beyond⟩
    · by_cases atY : join = some y
      · exact .inr ⟨y, atY, .single step⟩
      · exact .inl (before.tail ⟨atY, step.2⟩)
    · exact .inr ⟨j, atJ, beyond.tail step⟩

/-- A path that does not stay before a stop passes the stop. -/
theorem path_split (join : Option NodeId) (path : TransGen (Before r stop) s x) :
    TransGen (Before r join) s x ∨
      ∃ j, join = some j ∧ ReflTransGen (Before r stop) s j ∧ TransGen (Before r stop) j x := by
  induction path with
  | single step =>
    by_cases atS : join = some s
    · exact .inr ⟨s, atS, .refl, .single step⟩
    · exact .inl (.single ⟨atS, step.2⟩)
  | @tail y z path step ih =>
    rcases ih with before | ⟨j, atJ, reach, beyond⟩
    · by_cases atY : join = some y
      · exact .inr ⟨y, atY, path.to_reflTransGen, .single step⟩
      · exact .inl (before.tail ⟨atY, step.2⟩)
    · exact .inr ⟨j, atJ, reach, beyond.tail step⟩

/-- From a stack no stack of the path is reached before the stop, and none comes back to itself. -/
def KeepsOff (r : NodeId → NodeId → Prop) (path : List NodeId) (stop : Option NodeId)
    (t : NodeId) : Prop :=
  ∀ x, ReflTransGen (Before r stop) t x →
    (stop = some x ∨ x ∉ path) ∧ ¬ TransGen (Before r stop) x x

namespace KeepsOff

theorem at_stop : KeepsOff r path (some s) s := by
  have stuck : ∀ {y}, ¬ Before r (some s) s y := fun step => step.1 rfl
  intro x reach
  rcases reach.cases_head with rfl | ⟨_, step, _⟩
  · refine ⟨.inl rfl, fun cycle => ?_⟩
    obtain ⟨_, step, _⟩ := TransGen.head'_iff.mp cycle
    exact stuck step
  · exact (stuck step).elim

/-- A stack is not reached again if what it leads to keeps off it. -/
theorem of_next (outside : s ∉ path) (next : ∀ t, r s t → KeepsOff r (s :: path) stop t) :
    KeepsOff r path stop s := by
  intro x reach
  rcases reach.cases_head with rfl | ⟨t, step, onward⟩
  · refine ⟨.inr outside, fun cycle => ?_⟩
    obtain ⟨t, step, back⟩ := TransGen.head'_iff.mp cycle
    rcases (next t step.2 s back).1 with stops | away
    · exact step.1 stops
    · exact away (.head _)
  · obtain ⟨away, once⟩ := next t step.2 x onward
    exact ⟨away.imp_right fun away inside => away (.tail _ inside), once⟩

/-- What lies before a join and what lies behind it together keep off the path. -/
theorem through {join : Option NodeId} (before : KeepsOff r path join t)
    (behind : ∀ j, join = some j → KeepsOff r path stop j) : KeepsOff r path stop t := by
  intro x reach
  rcases reach_split join reach with near | ⟨j, atJ, far⟩
  · obtain ⟨away, once⟩ := before x near
    refine ⟨?_, fun cycle => ?_⟩
    · rcases away with atX | away
      · exact (behind x atX x .refl).1
      · exact .inr away
    · rcases path_split join cycle with short | ⟨j, atJ, there, back⟩
      · exact once short
      · exact (behind j atJ j .refl).2 (back.trans_left there)
  · exact behind j atJ x far

theorem before_stop (away : KeepsOff r path none t) : KeepsOff r path stop t := by
  have free : Before r stop ≤ Before r none := fun _ _ step => ⟨nofun, step.2⟩
  intro x reach
  obtain ⟨outside, once⟩ := away x (ReflTransGen.mono free _ _ reach)
  exact ⟨Or.inr (outside.resolve_left nofun), fun cycle => once (TransGen.mono free _ _ cycle)⟩

/-- Without a stop and a path this is to say that no cycle is reached. -/
theorem iff_no_cycle :
    KeepsOff r [] none t ↔ ∀ x, ReflTransGen r t x → ¬ TransGen r x x := by
  have free : Before r none = r := by
    funext x y
    simp [Before]
  unfold KeepsOff
  rw [free]
  simp

end KeepsOff

end Graph

open Relation

namespace Stmt

/-- The statement of a node that execution passes. -/
def Passes (s : Stmt) (node : NodeId) : Prop :=
  ∀ decisions, s.run decisions = (Outcome.idle decisions).behind [node]

/-- The statement of a node that leaves the function. -/
def Leaves (s : Stmt) (node : NodeId) : Prop :=
  ∀ decisions, s.run decisions = ⟨[node], .left, decisions⟩

/-- The statement of a node that repeats a body. -/
def Loops (s : Stmt) (node : NodeId) (body : List Stmt) : Prop :=
  ∀ decisions, s.run decisions = (Outcome.looping (runAll body) decisions).behind [node]

/-- The statement of a choice among bodies, by the names of the outputs that lead to them. -/
def Chooses (s : Stmt) (n : Node) (bodies : String → List Stmt) : Prop :=
  ∀ decisions, s.run decisions =
    (Outcome.deciding decisions fun d rest => runAll (bodies (n.kind.exit d)) rest).behind [n.id]

end Stmt

namespace Graph

/-- The join of ways, if every one of them leads somewhere. -/
def joinOfWays? (g : Graph) (ways : List (Option NodeId)) : Option NodeId :=
  (ways.mapM id).bind g.joinOf?

/-- The join of the ways out of a choice. -/
def joinBehind? (g : Graph) (n : Node) : Option NodeId :=
  g.joinOfWays? (n.kind.exitNames.map (g.execTarget? n.id))

/-- The statements of a passage up to a stop, with the stacks of the path around it. The branches of
a choice stop at its join, and the join is passed behind the choice. -/
inductive Emits (g : Graph) :
    (path : List NodeId) → (stop : Option NodeId) → Passage → List Stmt → Prop
  | stopped {path s} : Emits g path (some s) (.way (some s)) []
  | nowhere {path stop} : Emits g path stop (.way none) []
  | stack {path stop s stmts} : stop ≠ some s → s ∉ path →
      Emits g (s :: path) stop (.nodes s (g.children s)) stmts →
      Emits g path stop (.way (some s)) stmts
  | out {path stop s stmts} : Emits g path stop (.way (g.execTarget? s "Out")) stmts →
      Emits g path stop (.nodes s []) stmts
  | absent {path stop s c rest stmts} : g.node? c = none →
      Emits g path stop (.nodes s rest) stmts → Emits g path stop (.nodes s (c :: rest)) stmts
  | leave {path stop s c rest n stmt} : g.node? c = some n → n.kind.isLeave = true →
      stmt.Leaves n.id → Emits g path stop (.nodes s (c :: rest)) [stmt]
  | choice {path stop s c rest n stmt bodies stmts} : g.node? c = some n →
      n.kind.isBranching = true → stmt.Chooses n bodies →
      (∀ name ∈ n.kind.exitNames,
        Emits g path (g.joinBehind? n) (.way (g.execTarget? n.id name)) (bodies name)) →
      Emits g path stop (.way (g.joinBehind? n)) stmts →
      Emits g path stop (.nodes s (c :: rest)) (stmt :: stmts)
  | loop {path stop s c rest n stmt body stmts} : g.node? c = some n →
      n.kind.isLoop = true → stmt.Loops n.id body →
      Emits g path none (.way (g.execTarget? n.id "Body")) body →
      Emits g path stop (.nodes s rest) stmts →
      Emits g path stop (.nodes s (c :: rest)) (stmt :: stmts)
  | plain {path stop s c rest n stmt stmts} : g.node? c = some n →
      n.kind.isLeave = false → n.kind.isBranching = false → n.kind.isLoop = false →
      stmt.Passes n.id → Emits g path stop (.nodes s rest) stmts →
      Emits g path stop (.nodes s (c :: rest)) (stmt :: stmts)

/-- The ways on behind the rest of the nodes of a stack. -/
def waysBehind (g : Graph) (s : NodeId) (rest : List NodeId) : List (Option NodeId) :=
  match (rest.filterMap g.node?).find? fun n => n.kind.isBranching || n.kind.isLeave with
  | some terminal =>
    if terminal.kind.isLeave then []
    else terminal.execOutputs.map fun p => g.portTarget? p.id
  | none => (g.execTarget? s "Out").toList.map some

variable {g : Graph} {s c t x : NodeId} {rest path : List NodeId} {n : Node} {stop : Option NodeId}
  {stmts : List Stmt} {passage : Passage}

theorem waysBehind_nil : g.waysBehind s [] = (g.execTarget? s "Out").toList.map some := rfl

theorem waysBehind_absent (gone : g.node? c = none) :
    g.waysBehind s (c :: rest) = g.waysBehind s rest := by
  simp [waysBehind, gone]

theorem waysBehind_plain (found : g.node? c = some n) (leave : n.kind.isLeave = false)
    (choice : n.kind.isBranching = false) : g.waysBehind s (c :: rest) = g.waysBehind s rest := by
  simp [waysBehind, found, leave, choice]

theorem waysBehind_leave (found : g.node? c = some n) (leave : n.kind.isLeave = true) :
    g.waysBehind s (c :: rest) = [] := by
  simp [waysBehind, found, leave]

theorem waysBehind_choice {env : DefinitionEnv} (standard : g.Standard env)
    (found : g.node? c = some n) (choice : n.kind.isBranching = true) :
    g.waysBehind s (c :: rest) = n.kind.exitNames.map (g.execTarget? n.id) := by
  have stays := NodeKind.isLeave_of_isBranching choice
  simp [waysBehind, found, choice, stays, standard.exits found choice]

/-- The stacks that a passage leads to first. -/
def Leads (g : Graph) : Passage → NodeId → Prop
  | .way target, t => target = some t
  | .nodes s rest, t => some t ∈ g.waysBehind s rest
  | .rounds _, _ => False

/-- Steps of execution that do not start from the stop. -/
def StepsBefore (g : Graph) (stop : Option NodeId) (s t : NodeId) : Prop :=
  stop ≠ some s ∧ g.StepsTo s t

/-- From a stack no stack of the path is reached before the stop, and none comes back to itself. -/
def Onward (g : Graph) (path : List NodeId) (stop : Option NodeId) (t : NodeId) : Prop :=
  ∀ x, ReflTransGen (g.StepsBefore stop) t x →
    (stop = some x ∨ x ∉ path) ∧ ¬ TransGen (g.StepsBefore stop) x x

/-- Execution comes back to no stack of what was emitted. -/
theorem Emits.onward {env : DefinitionEnv} (standard : g.Standard env)
    (emits : g.Emits path stop passage stmts) : ∀ t, g.Leads passage t → g.Onward path stop t := by
  induction emits with
  | stopped => exact fun t leads => Option.some.inj leads ▸ KeepsOff.at_stop
  | nowhere => exact fun t leads => nomatch leads
  | @stack path stop s stmts _ outside _ ih =>
    intro t leads
    obtain rfl := Option.some.inj leads
    exact KeepsOff.of_next outside ih
  | out _ ih =>
    intro t leads
    refine ih t ?_
    simpa [Leads, waysBehind_nil] using leads
  | absent gone _ ih => exact fun t leads => ih t (by rwa [Leads, waysBehind_absent gone] at leads)
  | leave found leave => exact fun t leads => by simp [Leads, waysBehind_leave found leave] at leads
  | choice found choice _ _ _ branches behind =>
    intro t leads
    rw [Leads, waysBehind_choice standard found choice] at leads
    obtain ⟨name, member, target⟩ := List.mem_map.mp leads
    exact KeepsOff.through (branches name member t target) behind
  | loop found loop _ _ _ _ ih =>
    obtain ⟨leave, choice⟩ := NodeKind.isLeave_of_isLoop loop
    exact fun t leads => ih t (by rwa [Leads, waysBehind_plain found leave choice] at leads)
  | plain found leave choice _ _ _ ih =>
    exact fun t leads => ih t (by rwa [Leads, waysBehind_plain found leave choice] at leads)

/-- Execution flows forward from where statements are emitted without a stop. -/
theorem Emits.flowsForward {env : DefinitionEnv} (standard : g.Standard env)
    (emits : g.Emits path none passage stmts) (leads : g.Leads passage t) : g.FlowsForward [t] := by
  have free : g.StepsBefore none = g.StepsTo := by
    funext s t
    simp [StepsBefore]
  intro o member x reach
  obtain rfl := List.mem_singleton.mp member
  have := (emits.onward standard o leads x (free ▸ reach)).2
  rwa [free] at this

end Graph

end NodeScript
