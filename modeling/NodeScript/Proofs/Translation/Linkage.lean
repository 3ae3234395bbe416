import Mathlib
import NodeScript.Proofs.Translation.Emission

/-!
How stacks are linked: a stack leads to the stacks that execution goes on to behind it, and by the
loops among its nodes to their bodies. Only stacks are linked to others, unless other nodes hold
nodes too.
-/

namespace NodeScript

namespace Graph

open Relation

/-- The loops among nodes of a stack that come before the one that ends it. -/
def loopsBefore (g : Graph) (rest : List NodeId) : List Node :=
  ((rest.filterMap g.node?).takeWhile fun n => !(n.kind.isBranching || n.kind.isLeave)).filter
    (·.kind.isLoop)

/-- The rest of the nodes of a stack links it to another: execution goes on there, or a loop has its
body there. -/
def LinksBehind (g : Graph) (s : NodeId) (rest : List NodeId) (t : NodeId) : Prop :=
  some t ∈ g.waysBehind s rest ∨ ∃ n ∈ g.loopsBefore rest, g.execTarget? n.id "Body" = some t

/-- A stack is linked to the stacks that execution goes on to and to the bodies of the loops before
the node that ends it. -/
def LinksTo (g : Graph) (s t : NodeId) : Prop :=
  some t ∈ g.successors s ∨
    ∃ n ∈ g.loopsBefore (g.children s), g.execTarget? n.id "Body" = some t

variable {g : Graph} {env : DefinitionEnv} {s c t : NodeId} {rest : List NodeId} {n : Node}

theorem linksTo_iff : g.LinksTo s t ↔ g.LinksBehind s (g.children s) t := Iff.rfl

theorem StepsTo.links (step : g.StepsTo s t) : g.LinksTo s t := .inl step

theorem linksBehind_nil : g.LinksBehind s [] t ↔ g.execTarget? s "Out" = some t := by
  simp [LinksBehind, waysBehind_nil, loopsBefore]

theorem linksBehind_absent (gone : g.node? c = none) :
    g.LinksBehind s (c :: rest) t ↔ g.LinksBehind s rest t := by
  simp [LinksBehind, waysBehind_absent gone, loopsBefore, gone]

theorem linksBehind_passed (found : g.node? c = some n) (leave : n.kind.isLeave = false)
    (choice : n.kind.isBranching = false) :
    g.LinksBehind s (c :: rest) t ↔
      (n.kind.isLoop = true ∧ g.execTarget? n.id "Body" = some t) ∨ g.LinksBehind s rest t := by
  cases loop : n.kind.isLoop <;>
    simp [LinksBehind, waysBehind_plain found leave choice, loopsBefore, found, leave, choice, loop,
      or_left_comm]

theorem not_linksBehind_leave (found : g.node? c = some n) (leave : n.kind.isLeave = true) :
    ¬ g.LinksBehind s (c :: rest) t := by
  simp [LinksBehind, waysBehind_leave found leave, loopsBefore, found, leave]

theorem linksBehind_choice (standard : g.Standard env) (found : g.node? c = some n)
    (choice : n.kind.isBranching = true) :
    g.LinksBehind s (c :: rest) t ↔ ∃ name ∈ n.kind.exitNames, g.execTarget? n.id name = some t := by
  simp [LinksBehind, waysBehind_choice standard found choice, loopsBefore, found, choice]

theorem not_linksTo_missing (gone : g.node? s = none) : ¬ g.LinksTo s t := by
  have children : g.children s = [] := by simp [children, gone]
  have nowhere : g.execTarget? s "Out" = none := by simp [execTarget?, gone]
  rw [linksTo_iff, children, linksBehind_nil, nowhere]
  exact (Option.some_ne_none t).symm

theorem Standard.not_linksTo_of_empty (standard : g.Standard env) (found : g.node? s = some n)
    (other : n.kind.isStack = false) (empty : n.children = []) : ¬ g.LinksTo s t := by
  have children : g.children s = [] := by simp [children, found, empty]
  rw [linksTo_iff, children, linksBehind_nil, execTarget?, found]
  simp only [Option.bind_eq_bind, Option.bind_some, Option.bind_eq_some_iff]
  rintro ⟨p, out, _⟩
  have stack := standard.isStack_of_out found out
  simp [other] at stack

theorem Inevitable.linked (sure : g.Inevitable t s) : ReflTransGen g.LinksTo s t :=
  ReflTransGen.mono (fun _ _ => StepsTo.links) _ _ sure.reachable

/-- A stack is come to from which a stack comes back to itself. -/
def FlowsBack (g : Graph) (s : NodeId) : Prop :=
  ∃ x, ReflTransGen g.LinksTo s x ∧ TransGen g.LinksTo x x

/-- From an origin execution is led into stacks only, or to where nothing is held. -/
def EntersStacks (g : Graph) (origin : NodeId) : Prop :=
  ∀ {t n}, ReflTransGen g.LinksTo origin t → g.node? t = some n → n.kind.isStack = false →
    n.children = []

theorem EntersStacks.of_entries {origin : NodeId}
    (alone : ∀ entry ∈ g.nodes.entries, entry.2.kind.isStack = false → entry.2.children = []) :
    g.EntersStacks origin :=
  fun _ found => alone _ (OrderedMap.get?_eq_some_iff.mp found)

/-- A stack comes behind an origin and behind all stacks of a path. -/
structure Ahead (g : Graph) (origin : NodeId) (path : List NodeId) (t : NodeId) : Prop where
  reached : ReflTransGen g.LinksTo origin t
  behind : ∀ p ∈ path, TransGen g.LinksTo p t

namespace Ahead

variable {origin : NodeId} {path : List NodeId}

theorem of_origin : g.Ahead t [] t := ⟨.refl, nofun⟩

theorem onward (ahead : g.Ahead origin path s) (leads : ReflTransGen g.LinksTo s t) :
    g.Ahead origin path t where
  reached := ahead.reached.trans leads
  behind p inside := (ahead.behind p inside).trans_left leads

theorem next (ahead : g.Ahead origin path s) (link : g.LinksTo s t) :
    g.Ahead origin (s :: path) t where
  reached := ahead.reached.tail link
  behind := List.forall_mem_cons.mpr ⟨.single link, (ahead.onward (.single link)).behind⟩

theorem flowsBack (ahead : g.Ahead origin path t) (inside : t ∈ path) : g.FlowsBack origin :=
  ⟨t, ahead.reached, ahead.behind t inside⟩

end Ahead

end Graph

end NodeScript
