import Mathlib.Logic.Relation
import Mathlib.Tactic.ByContra
import NodeScript.Graph.Basic

/-!
Walks of execution from stack to stack. A walk goes on as long as it can or may end where execution
may end, and it need not end at all. What lies on every walk from a stack is captured by a
well-founded relation, so that nothing has to be said of endless walks once that is known.
-/

namespace NodeScript

namespace Graph

open Relation

/-- Execution may go on from one stack to another. -/
def StepsTo (g : Graph) (s t : NodeId) : Prop := some t ∈ g.successors s

/-- Execution may end at a stack: it leads nowhere, or one of its ways does. -/
def MayEnd (g : Graph) (s : NodeId) : Prop := g.successors s = [] ∨ none ∈ g.successors s

/-- A maximal walk of execution, as the stack at each moment and nothing once it has ended. It ends
only where execution may end, and it may go on for ever. -/
structure MaximalWalk (g : Graph) (origin : NodeId) (walk : Nat → Option NodeId) : Prop where
  starts : walk 0 = some origin
  steps : ∀ i s t, walk i = some s → walk (i + 1) = some t → g.StepsTo s t
  ends : ∀ i s, walk i = some s → walk (i + 1) = none → g.MayEnd s
  stays : ∀ i, walk i = none → walk (i + 1) = none

/-- Every maximal walk from `origin` visits `j`. -/
def Unavoidable (g : Graph) (j origin : NodeId) : Prop :=
  ∀ walk, g.MaximalWalk origin walk → ∃ i, walk i = some j

/-- However execution goes on, it comes to `j` after finitely many steps. -/
inductive Inevitable (g : Graph) (j : NodeId) : NodeId → Prop
  | here : Inevitable g j j
  | later {s} : ¬ g.MayEnd s → (∀ t, g.StepsTo s t → Inevitable g j t) → Inevitable g j s

/-- No stack that is reachable from the origins comes back to itself. -/
def FlowsForward (g : Graph) (origins : List NodeId) : Prop :=
  ∀ o ∈ origins, ∀ s, ReflTransGen g.StepsTo o s → ¬ TransGen g.StepsTo s s

variable {g : Graph} {s t j o : NodeId} {walk : Nat → Option NodeId}

theorem StepsTo.of_not_mayEnd (goesOn : ¬ g.MayEnd s) : ∃ t, g.StepsTo s t := by
  cases ways : g.successors s with
  | nil => exact absurd (.inl ways) goesOn
  | cons way rest =>
    cases way with
    | none => exact absurd (.inr (by simp [ways])) goesOn
    | some t => exact ⟨t, by simp [StepsTo, ways]⟩

/-- A stack that leads anywhere is a node of the graph. -/
theorem StepsTo.mem_keys (step : g.StepsTo s t) : s ∈ g.nodes.keys := by
  by_contra absent
  have gone : g.node? s = none := OrderedMap.get?_eq_none_iff.mpr absent
  simp [StepsTo, successors, terminal?, children, execTarget?, gone] at step

/-- A walk without its first moment is a walk from the second. -/
theorem MaximalWalk.tail (run : g.MaximalWalk s walk) (next : walk 1 = some t) :
    g.MaximalWalk t fun i => walk (i + 1) where
  starts := next
  steps i := run.steps (i + 1)
  ends i := run.ends (i + 1)
  stays i := run.stays (i + 1)

/-- Two moments of a walk are joined by steps. -/
theorem MaximalWalk.reaches (run : g.MaximalWalk o walk) {i k : Nat} (order : i ≤ k)
    (atI : walk i = some s) (atK : walk k = some t) : ReflTransGen g.StepsTo s t := by
  induction order generalizing t with
  | refl =>
    have same : s = t := Option.some.inj (atI.symm.trans atK)
    exact same ▸ .refl
  | @step k _ ih =>
    cases before : walk k with
    | none => simp [run.stays k before] at atK
    | some m => exact (ih before).tail (run.steps k m t before atK)

theorem MaximalWalk.reachable (run : g.MaximalWalk o walk) {i : Nat} (atI : walk i = some s) :
    ReflTransGen g.StepsTo o s :=
  run.reaches (Nat.zero_le i) run.starts atI

theorem Inevitable.unavoidable (sure : g.Inevitable j s) : g.Unavoidable j s := by
  induction sure with
  | here => exact fun walk run => ⟨0, run.starts⟩
  | @later s goesOn _ ih =>
    intro walk run
    cases next : walk 1 with
    | none => exact absurd (run.ends 0 s run.starts next) goesOn
    | some t =>
      obtain ⟨i, visited⟩ := ih t (run.steps 0 s t run.starts next) _ (run.tail next)
      exact ⟨i + 1, visited⟩

open Classical in
/-- A walk that keeps away from a stack as long as there is a way to. -/
noncomputable def evasion (g : Graph) (j o : NodeId) : Nat → Option NodeId
  | 0 => some o
  | i + 1 => (evasion g j o i).bind fun s =>
    if away : ∃ t, g.StepsTo s t ∧ ¬ g.Inevitable j t then some away.choose else none

theorem evasion_step {i : Nat} (atI : evasion g j o i = some s) (next : evasion g j o (i + 1) = some t) :
    g.StepsTo s t ∧ ¬ g.Inevitable j t := by
  rw [evasion, atI, Option.bind_some] at next
  split at next
  · rename_i away
    obtain rfl := Option.some.inj next
    exact away.choose_spec
  · simp at next

theorem evasion_evades (avoidable : ¬ g.Inevitable j o) {i : Nat} (atI : evasion g j o i = some s) :
    ¬ g.Inevitable j s := by
  cases i with
  | zero => exact Option.some.inj atI ▸ avoidable
  | succ i =>
    cases before : evasion g j o i with
    | none => simp [evasion, before] at atI
    | some m => exact (evasion_step before atI).2

theorem evasion_maximalWalk (avoidable : ¬ g.Inevitable j o) : g.MaximalWalk o (evasion g j o) where
  starts := rfl
  steps _ _ _ atI next := (evasion_step atI next).1
  ends i s atI next := by
    -- the walk is stuck, so every step from here is to a stack that cannot keep away
    rw [evasion, atI, Option.bind_some] at next
    split at next
    · simp at next
    · rename_i stuck
      by_contra goesOn
      refine evasion_evades avoidable atI (.later goesOn fun t step => ?_)
      by_contra avoids
      exact stuck ⟨t, step, avoids⟩
  stays i gone := by rw [evasion, gone, Option.bind_none]

/-- A stack that every maximal walk visits is come to after finitely many steps. -/
theorem Unavoidable.inevitable (always : g.Unavoidable j o) : g.Inevitable j o := by
  by_contra avoidable
  obtain ⟨i, visited⟩ := always _ (evasion_maximalWalk avoidable)
  exact evasion_evades avoidable visited .here

theorem unavoidable_iff_inevitable : g.Unavoidable j o ↔ g.Inevitable j o :=
  ⟨Unavoidable.inevitable, Inevitable.unavoidable⟩

theorem Inevitable.reachable (sure : g.Inevitable j s) : ReflTransGen g.StepsTo s j := by
  induction sure with
  | here => exact .refl
  | later goesOn _ ih =>
    obtain ⟨t, step⟩ := StepsTo.of_not_mayEnd goesOn
    exact (ih t step).head step

theorem Inevitable.cases_ne (sure : g.Inevitable j s) (different : s ≠ j) :
    ¬ g.MayEnd s ∧ ∀ t, g.StepsTo s t → g.Inevitable j t := by
  cases sure with
  | here => exact absurd rfl different
  | later goesOn next => exact ⟨goesOn, next⟩

namespace FlowsForward

variable {origins : List NodeId}

/-- What flows forward from some origins does so from every stack behind them. -/
theorem behind (forward : g.FlowsForward origins) (origin : o ∈ origins)
    (reach : ReflTransGen g.StepsTo o s) : g.FlowsForward [s] := by
  intro s' single t onward
  rw [List.mem_singleton.mp single] at onward
  exact forward o origin t (reach.trans onward)

end FlowsForward

end Graph

end NodeScript
