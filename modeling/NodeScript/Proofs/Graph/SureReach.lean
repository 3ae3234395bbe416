import Mathlib.Data.List.Perm.Subperm
import NodeScript.Graph.Join
import NodeScript.Proofs.Graph.Walk
import NodeScript.Proofs.OrderedMap

/-!
The search for what is sure to be reached from a stack. The search is told once more as a run without
a bound on its depth; the bound that the graph gives is never met. Whatever the run reports lies on
every walk, also when it was cut at a stack that was still being worked on.
-/

namespace NodeScript

/-- What is sure to be reached through one way and through the others, if there are others. -/
def meetWays (reached : List NodeId) : Option (List NodeId) → List NodeId
  | none => reached
  | some others => commonMembers reached others

/-- A stack is in what several ways report together; without ways every stack is. -/
def Reports (through : Option (List NodeId)) (x : NodeId) : Prop :=
  ∀ list, through = some list → x ∈ list

theorem mem_commonMembers {x : NodeId} {a b : List NodeId} :
    x ∈ commonMembers a b ↔ x ∈ a ∧ x ∈ b := by
  simp [commonMembers]

theorem reports_meetWays {x : NodeId} {reached : List NodeId} {others : Option (List NodeId)} :
    Reports (some (meetWays reached others)) x ↔ x ∈ reached ∧ Reports others x := by
  cases others <;> simp [Reports, meetWays, mem_commonMembers]

namespace Graph

open Relation

/-- What a stack reports when its ways report something together. -/
def sureWith (stack : NodeId) (through : Option (List NodeId)) : List NodeId :=
  stack :: (through.getD []).filter (· ≠ stack)

theorem mem_sureWith {x stack : NodeId} {through : Option (List NodeId)} :
    x ∈ sureWith stack through ↔ x = stack ∨ ∃ l, through = some l ∧ x ∈ l := by
  cases through with
  | none => simp [sureWith]
  | some l =>
    simp only [sureWith, Option.getD_some, List.mem_cons, List.mem_filter, decide_eq_true_eq,
      Option.some.injEq, exists_eq_left']
    by_cases same : x = stack <;> simp [same]

/-- The search through several ways, without a bound on its depth: what is pending, what has been
worked out, the ways, and then what they report together and what has been worked out by then. -/
inductive SureRun (g : Graph) :
    List NodeId → ReachTable → List (Option NodeId) → Option (List NodeId) → ReachTable → Prop
  | done {pending table} : SureRun g pending table [] none table
  | nowhere {pending table rest others after} :
      SureRun g pending table rest others after →
      SureRun g pending table (none :: rest) (some (meetWays [] others)) after
  | known {pending table t list rest others after} : table.get? t = some list →
      SureRun g pending table rest others after →
      SureRun g pending table (some t :: rest) (some (meetWays list others)) after
  | again {pending table t rest others after} : table.get? t = none → t ∈ pending →
      SureRun g pending table rest others after →
      SureRun g pending table (some t :: rest) (some (meetWays [] others)) after
  | fresh {pending table t through middle rest others after} : table.get? t = none → t ∉ pending →
      SureRun g (t :: pending) table (g.successors t) through middle →
      SureRun g pending (middle.insert t (sureWith t through)) rest others after →
      SureRun g pending table (some t :: rest) (some (meetWays (sureWith t through) others)) after

variable {g : Graph} {pending : List NodeId} {table after : ReachTable}
  {ways : List (Option NodeId)} {through : Option (List NodeId)} {s o x : NodeId}

/-- Of the stacks that are worked on none stands twice and all are nodes of the graph, and there is
still depth for the other nodes and one stack more. -/
structure WithinDepth (g : Graph) (depth : Nat) (pending : List NodeId) : Prop where
  nodup : pending.Nodup
  nodes : pending ⊆ g.nodes.keys
  enough : g.nodes.size < depth + pending.length

theorem WithinDepth.of_lt {depth : Nat} (enough : g.nodes.size < depth) : g.WithinDepth depth [] :=
  ⟨List.nodup_nil, List.nil_subset _, enough⟩

theorem WithinDepth.positive {depth : Nat} (within : g.WithinDepth depth pending) : depth ≠ 0 := by
  have bound := (List.subperm_of_subset within.nodup within.nodes).length_le
  rw [OrderedMap.length_keys] at bound
  have enough := within.enough
  omega

theorem WithinDepth.cons {depth : Nat} (within : g.WithinDepth (depth + 1) pending) (new : s ∉ pending)
    (node : s ∈ g.nodes.keys) : g.WithinDepth depth (s :: pending) where
  nodup := List.nodup_cons.mpr ⟨new, within.nodup⟩
  nodes := List.cons_subset.mpr ⟨node, within.nodes⟩
  enough := by
    have enough := within.enough
    rw [List.length_cons]
    omega

theorem mem_keys_of_mem_successors {way : Option NodeId} (member : way ∈ g.successors s) :
    s ∈ g.nodes.keys := by
  by_contra absent
  have gone : g.node? s = none := OrderedMap.get?_eq_none_iff.mpr absent
  simp [successors, terminal?, children, execTarget?, gone] at member

theorem sureThrough_nowhere (depth : Nat) (pending : List NodeId) (table : ReachTable)
    (rest : List (Option NodeId)) :
    g.sureThrough depth pending table (none :: rest) =
      (some (meetWays [] (g.sureThrough depth pending table rest).1),
        (g.sureThrough depth pending table rest).2) := by
  rw [sureThrough]
  generalize g.sureThrough depth pending table rest = onward
  obtain ⟨others, after⟩ := onward
  cases others <;> rfl

theorem sureThrough_next (depth : Nat) (pending : List NodeId) (table : ReachTable) (t : NodeId)
    (rest : List (Option NodeId)) {reached : List NodeId} {middle : ReachTable}
    (first : g.sureFrom depth pending table t = (reached, middle)) :
    g.sureThrough depth pending table (some t :: rest) =
      (some (meetWays reached (g.sureThrough depth pending middle rest).1),
        (g.sureThrough depth pending middle rest).2) := by
  rw [sureThrough, first]
  dsimp only
  generalize g.sureThrough depth pending middle rest = onward
  obtain ⟨others, after⟩ := onward
  cases others <;> rfl

theorem sureFrom_known {list : List NodeId} (held : table.get? s = some list) (depth : Nat) :
    g.sureFrom depth pending table s = (list, table) := by
  cases depth <;> rw [sureFrom, held]

theorem sureFrom_again (new : table.get? s = none) (busy : s ∈ pending) (depth : Nat) :
    g.sureFrom depth pending table s = ([], table) := by
  cases depth <;> simp [sureFrom, new, busy]

theorem sureFrom_fresh (new : table.get? s = none) (idle : s ∉ pending) (depth : Nat) :
    g.sureFrom (depth + 1) pending table s =
      (sureWith s (g.sureThrough depth (s :: pending) table (g.successors s)).1,
        (g.sureThrough depth (s :: pending) table (g.successors s)).2.insert s
          (sureWith s (g.sureThrough depth (s :: pending) table (g.successors s)).1)) := by
  simp [sureFrom, new, idle, sureWith]

/-- The search within a depth that is left is the search without a bound. The induction is on the
depth, and for each depth on the ways. -/
theorem sureThrough_run (depth : Nat) (pending : List NodeId) (table : ReachTable)
    (ways : List (Option NodeId)) (within : ways ≠ [] → g.WithinDepth depth pending) :
    g.SureRun pending table ways (g.sureThrough depth pending table ways).1
      (g.sureThrough depth pending table ways).2 := by
  induction depth generalizing pending table ways with
  | zero =>
    cases ways with
    | nil => rw [sureThrough]; exact .done
    | cons way rest => exact absurd rfl (within (by simp)).positive
  | succ depth ihDepth =>
    induction ways generalizing table with
    | nil => rw [sureThrough]; exact .done
    | cons way rest ih =>
      have bounded := within (by simp)
      have onward := fun table => ih table fun _ => bounded
      cases way with
      | none => rw [sureThrough_nowhere]; exact .nowhere (onward table)
      | some t =>
        cases held : table.get? t with
        | some list =>
          rw [sureThrough_next _ _ _ _ _ (sureFrom_known held _)]
          exact .known held (onward table)
        | none =>
          by_cases busy : t ∈ pending
          · rw [sureThrough_next _ _ _ _ _ (sureFrom_again held busy _)]
            exact .again held busy (onward table)
          · rw [sureThrough_next _ _ _ _ _ (sureFrom_fresh held busy _)]
            refine .fresh held busy (ihDepth (t :: pending) table (g.successors t) ?_) (onward _)
            intro some
            obtain ⟨way, member⟩ := List.exists_mem_of_ne_nil _ some
            exact bounded.cons busy (mem_keys_of_mem_successors member)

/-- The depth that the graph gives is never used up: the search from a stack is a run without a
bound. -/
theorem sureReach_run (g : Graph) (o : NodeId) :
    ∃ after, g.SureRun [] ∅ [some o] (some (g.sureReach o)) after := by
  have within : g.WithinDepth (g.nodes.size + 1) [] := .of_lt (Nat.lt_succ_self _)
  have run := sureThrough_run (g.nodes.size + 1) [] ∅ [some o] fun _ => within
  rw [sureThrough_next _ _ _ _ _ rfl, sureThrough] at run
  exact ⟨_, run⟩

/-- A way leads somewhere from where a stack is inevitable. -/
def LeadsTo (g : Graph) (x : NodeId) (way : Option NodeId) : Prop :=
  ∃ t, way = some t ∧ g.Inevitable x t

theorem inevitable_of_leadsTo (leads : g.successors s ≠ [])
    (always : ∀ way ∈ g.successors s, g.LeadsTo x way) : g.Inevitable x s := by
  refine .later ?_ fun t step => ?_
  · rintro (stuck | lost)
    · exact leads stuck
    · obtain ⟨t, absurdity, _⟩ := always none lost
      simp at absurdity
  · obtain ⟨t', same, sure⟩ := always (some t) step
    exact Option.some.inj same ▸ sure

theorem Inevitable.leadsTo (sure : g.Inevitable x s) (different : s ≠ x) :
    g.successors s ≠ [] ∧ ∀ way ∈ g.successors s, g.LeadsTo x way := by
  obtain ⟨goesOn, next⟩ := sure.cases_ne different
  refine ⟨fun stuck => goesOn (.inl stuck), fun way member => ?_⟩
  cases way with
  | none => exact absurd (.inr member) goesOn
  | some t => exact ⟨t, rfl, next t member⟩

theorem SureRun.ways_ne_nil {list : List NodeId}
    (run : g.SureRun pending table ways (some list) after) : ways ≠ [] := by
  rintro rfl
  cases run

theorem SureRun.exists_report (run : g.SureRun pending table ways through after) (some : ways ≠ []) :
    ∃ list, through = .some list := by
  cases run with
  | done => exact absurd rfl some
  | nowhere | known | again | fresh => exact ⟨_, rfl⟩

/-- A search through ways has one outcome. -/
theorem SureRun.unique {after' : ReachTable} {through' : Option (List NodeId)}
    (run : g.SureRun pending table ways through after)
    (run' : g.SureRun pending table ways through' after') : through = through' ∧ after = after' := by
  induction run generalizing through' after' with
  | done =>
    cases run'
    exact ⟨rfl, rfl⟩
  | nowhere _ ih =>
    cases run' with
    | nowhere rest =>
      obtain ⟨rfl, rfl⟩ := ih rest
      exact ⟨rfl, rfl⟩
  | known held _ ih =>
    cases run' with
    | known held' rest =>
      obtain ⟨rfl, rfl⟩ := ih rest
      obtain rfl := Option.some.inj (held.symm.trans held')
      exact ⟨rfl, rfl⟩
    | again new | fresh new => cases held.symm.trans new
  | again new busy _ ih =>
    cases run' with
    | again _ _ rest =>
      obtain ⟨rfl, rfl⟩ := ih rest
      exact ⟨rfl, rfl⟩
    | known held => cases held.symm.trans new
    | fresh _ idle => exact absurd busy idle
  | fresh new idle _ _ ihInner ih =>
    cases run' with
    | fresh _ _ inner rest =>
      obtain ⟨rfl, rfl⟩ := ihInner inner
      obtain ⟨rfl, rfl⟩ := ih rest
      exact ⟨rfl, rfl⟩
    | known held => cases held.symm.trans new
    | again _ busy => exact absurd busy idle

/-- Everything that a table holds is inevitable from the stack that it is held for. -/
def SoundTable (g : Graph) (table : ReachTable) : Prop :=
  ∀ s list, table.get? s = some list → ∀ x ∈ list, g.Inevitable x s

theorem SoundTable.empty : g.SoundTable ∅ := by
  intro s list held
  exact absurd held (by simp [OrderedMap.get?, OrderedMap.entries_empty])

theorem SoundTable.insert (sound : g.SoundTable table) {list : List NodeId}
    (new : ∀ x ∈ list, g.Inevitable x s) : g.SoundTable (table.insert s list) := by
  intro t held found x member
  rw [OrderedMap.get?_insert] at found
  split at found
  · rename_i same
    obtain rfl := Option.some.inj found
    exact same ▸ new x member
  · exact sound t held found x member

/-- Cut off or not, what a search reports is inevitable through every one of its ways. -/
theorem SureRun.sound (run : g.SureRun pending table ways through after) (sound : g.SoundTable table) :
    g.SoundTable after ∧ ∀ x, Reports through x → ∀ way ∈ ways, g.LeadsTo x way := by
  induction run with
  | done => exact ⟨sound, by simp⟩
  | nowhere _ ih | again _ _ _ ih =>
    refine ⟨(ih sound).1, fun x report => ?_⟩
    exact absurd (reports_meetWays.mp report).1 List.not_mem_nil
  | @known _ _ t _ _ _ _ held _ ih =>
    refine ⟨(ih sound).1, fun x report => ?_⟩
    obtain ⟨inList, inOthers⟩ := reports_meetWays.mp report
    exact List.forall_mem_cons.mpr ⟨⟨t, rfl, sound t _ held x inList⟩, (ih sound).2 x inOthers⟩
  | @fresh _ _ t through _ _ _ _ _ _ inner _ ihInner ih =>
    obtain ⟨soundMiddle, soundInner⟩ := ihInner sound
    have sure : ∀ x ∈ sureWith t through, g.Inevitable x t := by
      intro x member
      rcases mem_sureWith.mp member with rfl | ⟨list, rfl, inside⟩
      · exact .here
      · refine inevitable_of_leadsTo inner.ways_ne_nil (soundInner x ?_)
        rintro _ ⟨⟩
        exact inside
    obtain ⟨soundAfter, soundRest⟩ := ih (soundMiddle.insert sure)
    refine ⟨soundAfter, fun x report => ?_⟩
    obtain ⟨inList, inOthers⟩ := reports_meetWays.mp report
    exact List.forall_mem_cons.mpr ⟨⟨t, rfl, sure x inList⟩, soundRest x inOthers⟩

/-- What is sure to be reached from a stack lies on every walk from it. -/
theorem inevitable_of_mem_sureReach (member : x ∈ g.sureReach o) : g.Inevitable x o := by
  obtain ⟨after, run⟩ := g.sureReach_run o
  have report : Reports (some (g.sureReach o)) x := by
    rintro _ ⟨⟩
    exact member
  obtain ⟨t, same, sure⟩ := (run.sound .empty).2 x report (some o) (by simp)
  exact Option.some.inj same ▸ sure

end Graph

end NodeScript
