import NodeScript.Proofs.Translation.Emission

/-!
Emitted statements against walks through the graph. A walk over a passage does what the statements
of the passage do and then goes on at the stop, whatever is still ahead of it; where the stop is a
join, no walk gets past it unseen.
-/

namespace NodeScript

open Relation

namespace Outcome

/-- Nothing takes decisions back. -/
def Shrinks (run : List Int64 → Outcome) : Prop :=
  ∀ decisions, (run decisions).rest.length ≤ decisions.length

theorem shrinks_andThen {o : Outcome} {next : List Int64 → Outcome} (shrinks : Shrinks next) :
    (o.andThen next).rest.length ≤ o.rest.length := by
  unfold andThen
  split
  · exact shrinks o.rest
  · exact Nat.le_refl _

theorem shrinks_deciding {next : Int64 → List Int64 → Outcome} (shrinks : ∀ d, Shrinks (next d)) :
    Shrinks fun decisions => deciding decisions next := by
  intro decisions
  cases decisions with
  | nil => exact Nat.le_refl _
  | cons d rest => exact Nat.le_trans (shrinks d rest) (Nat.le_succ _)

theorem shrinks_rounds {body : List Int64 → Outcome} (shrinks : Shrinks body) (bound : Nat) :
    Shrinks (rounds body bound) := by
  induction bound with
  | zero => exact fun _ => Nat.le_refl _
  | succ bound ih =>
    refine shrinks_deciding fun d rest => ?_
    by_cases zero : d = 0
    · rw [if_pos zero]
      exact Nat.le_refl _
    · rw [if_neg zero]
      exact Nat.le_trans (shrinks_andThen ih) (shrinks rest)

end Outcome

mutual

theorem Stmt.shrinks_run (s : Stmt) : Outcome.Shrinks s.run := by
  cases s with
  | branch origin condition thenBody elseBody =>
    intro decisions
    rw [Stmt.run]
    refine Outcome.shrinks_deciding (fun d rest => ?_) decisions
    split
    · exact Stmt.shrinks_runAll elseBody rest
    · exact Stmt.shrinks_runAll thenBody rest
  | select origin value cases fallback =>
    intro decisions
    rw [Stmt.run]
    refine Outcome.shrinks_deciding (fun d => ?_) decisions
    exact SwitchCase.shrinks_runFirst cases d (Stmt.shrinks_runAll fallback)
  | repeated origin condition body =>
    intro decisions
    rw [Stmt.run]
    exact Outcome.shrinks_rounds (Stmt.shrinks_runAll body) _ decisions
  | forEach origin item collection body =>
    intro decisions
    rw [Stmt.run]
    exact Outcome.shrinks_rounds (Stmt.shrinks_runAll body) _ decisions
  | _ =>
    intro decisions
    simp [Stmt.run, Outcome.behind, Outcome.idle]

theorem Stmt.shrinks_runAll (stmts : List Stmt) : Outcome.Shrinks (Stmt.runAll stmts) := by
  cases stmts with
  | nil =>
    intro decisions
    rw [Stmt.runAll]
    exact Nat.le_refl _
  | cons s rest =>
    intro decisions
    rw [Stmt.runAll]
    exact Nat.le_trans (Outcome.shrinks_andThen (Stmt.shrinks_runAll rest)) (s.shrinks_run decisions)

theorem SwitchCase.shrinks_runFirst (cases : List SwitchCase) (d : Int64)
    {otherwise : List Int64 → Outcome} (shrinks : Outcome.Shrinks otherwise) :
    Outcome.Shrinks fun decisions => SwitchCase.runFirst cases d decisions otherwise := by
  intro decisions
  match cases with
  | [] =>
    simp only [SwitchCase.runFirst]
    exact shrinks decisions
  | .mk label body :: rest =>
    simp only [SwitchCase.runFirst]
    split
    · exact Stmt.shrinks_runAll body decisions
    · exact SwitchCase.shrinks_runFirst rest d shrinks decisions

end

theorem NodeKind.exit_mem_exitNames {kind : NodeKind} (choice : kind.isBranching = true)
    (d : Int64) : kind.exit d ∈ kind.exitNames := by
  cases kind with
  | branch => by_cases zero : d = 0 <;> simp [exit, exitNames, zero]
  | select cases =>
    by_cases member : d ∈ cases
    · simp only [exit, member, if_true, exitNames]
      exact List.mem_append_left _ (List.mem_map_of_mem member)
    · simp [exit, exitNames, member]
  | _ => simp [isBranching] at choice

namespace Walker

variable {g : Graph} {ahead later : List Passage} {visited before : List NodeId} {o p : Outcome}
  {decisions : List Int64}

/-- A walk that has done what `o` tells goes on with what is ahead, or came to rest with `o`. -/
def Resumes (g : Graph) (ahead : List Passage) (visited : List NodeId) (o p : Outcome) : Prop :=
  if o.ending = .finished then Ends g ⟨ahead, o.rest, visited ++ o.visited⟩ p
  else p = o.behind visited

theorem resumes_idle : Resumes g ahead visited (.idle decisions) p ↔
    Ends g ⟨ahead, decisions, visited⟩ p := by
  simp [Resumes, Outcome.idle]

theorem resumes_behind : Resumes g ahead visited (o.behind before) p ↔
    Resumes g ahead (visited ++ before) o p := by
  simp only [Resumes, Outcome.behind, List.append_assoc]
  rfl

/-- What is ahead can be put in place of what does the same. -/
theorem Resumes.split {next : List Int64 → Outcome}
    (resumes : Resumes g later visited (o.andThen next) p)
    (walks : ∀ visited, Resumes g later visited (next o.rest) p → Ends g ⟨ahead, o.rest, visited⟩ p) :
    Resumes g ahead visited o p := by
  by_cases finished : o.ending = .finished
  · rw [Outcome.andThen, finished, resumes_behind] at resumes
    rw [Resumes, if_pos finished]
    exact walks _ resumes
  · have same : o.andThen next = o := by
      unfold Outcome.andThen
      split
      · rename_i done
        exact absurd done finished
      · rfl
    rw [same, Resumes, if_neg finished] at resumes
    rw [Resumes, if_neg finished]
    exact resumes

end Walker

namespace Graph

open Walker

variable {env : DefinitionEnv} {g : Graph} {s c t j loop : NodeId} {path : List NodeId}
  {rest : List NodeId} {n : Node} {stop : Option NodeId} {stmts : List Stmt} {passage : Passage}

/-- A walk over a passage does what the statements do and goes on at the stop. -/
def Simulates (g : Graph) (passage : Passage) (stop : Option NodeId) (stmts : List Stmt) : Prop :=
  ∀ later decisions visited o,
    Resumes g (.way stop :: later) visited (Stmt.runAll stmts decisions) o →
      Ends g ⟨passage :: later, decisions, visited⟩ o

/-- The rounds of a loop whose body is simulated. -/
theorem Simulates.rounds (body : g.Simulates (.way (g.execTarget? loop "Body")) none stmts)
    (bound : Nat) {ahead : List Passage} {decisions : List Int64} {visited : List NodeId}
    {o : Outcome} (enough : decisions.length < bound)
    (resumes : Resumes g ahead visited (Outcome.rounds (Stmt.runAll stmts) bound decisions) o) :
    Ends g ⟨.rounds loop :: ahead, decisions, visited⟩ o := by
  induction bound generalizing decisions visited with
  | zero => omega
  | succ bound ih =>
    cases decisions with
    | nil =>
      obtain rfl : o = _ := resumes
      simpa [Outcome.rounds, Outcome.deciding, Outcome.behind] using .undecidedRound
    | cons d rest =>
      rw [Outcome.rounds, Outcome.deciding] at resumes
      by_cases zero : d = 0
      · rw [if_pos zero, resumes_idle] at resumes
        exact zero ▸ resumes.lastRound
      · rw [if_neg zero] at resumes
        refine .round zero (body _ _ _ _ ?_)
        have shorter : (Stmt.runAll stmts rest).rest.length < bound :=
          Nat.lt_of_le_of_lt (Stmt.shrinks_runAll stmts rest) (by simpa using enough)
        exact resumes.split fun visited resumes => .later rfl (ih shorter resumes)

theorem mapM_id_eq_some {ways : List (Option NodeId)} {targets : List NodeId} :
    ways.mapM id = some targets ↔ ways = targets.map some := by
  induction ways generalizing targets with
  | nil => cases targets <;> simp
  | cons way rest ih =>
    cases way with
    | none => cases targets <;> simp
    | some t =>
      simp only [List.mapM_cons, id, Option.bind_eq_bind, Option.bind_some, Option.bind_eq_some_iff,
        Option.pure_def, Option.some.injEq, ih]
      cases targets with
      | nil => simp
      | cons => simp [and_comm]

/-- Every way leads to the join of the ways. -/
theorem leadsTo_of_joinOfWays? {ways : List (Option NodeId)} (found : g.joinOfWays? ways = some j) :
    ways ≠ [] ∧ ∀ way ∈ ways, g.LeadsTo j way := by
  obtain ⟨targets, leads, joined⟩ := Option.bind_eq_some_iff.mp found
  obtain rfl := mapM_id_eq_some.mp leads
  refine ⟨?_, fun way member => ?_⟩
  · rintro nothing
    obtain rfl := List.map_eq_nil_iff.mp nothing
    simp [joinOf?] at joined
  · obtain ⟨t, origin, rfl⟩ := List.mem_map.mp member
    exact ⟨t, rfl, inevitable_of_mem_sureReach ((joinOf?_spec joined).1 t origin)⟩

/-- Ways that all lead to a stack have a join, and the stack is still ahead there. -/
theorem exists_joinOfWays {ways : List (Option NodeId)} (some : ways ≠ [])
    (always : ∀ way ∈ ways, g.LeadsTo s way)
    (forward : ∀ t, .some t ∈ ways → g.FlowsForward [t]) :
    ∃ j, g.joinOfWays? ways = .some j ∧ g.Inevitable s j := by
  obtain ⟨targets, rfl⟩ : ∃ targets : List NodeId, ways = targets.map .some := by
    refine ⟨ways.filterMap id, ?_⟩
    have all : ∀ way ∈ ways, way.isSome := fun way member => by
      obtain ⟨t, rfl, _⟩ := always way member
      rfl
    exact (List.map_filterMap_some_eq_filter_map_isSome).symm ▸ by simp [List.filter_eq_self.mpr all]
  have common : ∀ t ∈ targets, s ∈ g.sureReach t := by
    intro t origin
    have member := List.mem_map_of_mem (f := Option.some) origin
    obtain ⟨t', same, sure⟩ := always _ member
    obtain rfl := Option.some.inj same
    exact (mem_sureReach_iff (forward t member)).mpr sure
  obtain ⟨j, found⟩ := exists_join (by simpa using some) common
  refine ⟨j, ?_, inevitable_of_joinOf? found common⟩
  rw [joinOfWays?, mapM_id_eq_some.mpr rfl, Option.bind_some, found]

/-- Every walk over a passage comes to the stop, if there is one. -/
def ComesTo (g : Graph) (stop : Option NodeId) : Passage → Prop
  | .way target => ∀ j, stop = some j → g.LeadsTo j target
  | .nodes s rest => ∀ j, stop = some j →
    g.waysBehind s rest ≠ [] ∧ ∀ way ∈ g.waysBehind s rest, g.LeadsTo j way
  | .rounds _ => stop = none

/-- Walks over what was emitted. -/
theorem Emits.simulates (standard : g.Standard env) (emits : g.Emits path stop passage stmts)
    (sure : g.ComesTo stop passage) (forward : ∀ t, g.Leads passage t → g.FlowsForward [t]) :
    g.Simulates passage stop stmts := by
  induction emits with
  | stopped => exact fun later decisions visited o resumes => resumes_idle.mp resumes
  | @nowhere path stop =>
    cases stop with
    | none => exact fun later decisions visited o resumes => resumes_idle.mp resumes
    | some j => obtain ⟨_, absurdity, _⟩ := sure j rfl; simp at absurdity
  | @stack path stop s stmts unstopped _ _ ih =>
    intro later decisions visited o resumes
    refine .later rfl (ih ?_ ?_ later decisions visited o resumes)
    · intro j atJ
      obtain ⟨_, same, always⟩ := sure j atJ
      obtain rfl := Option.some.inj same
      exact always.leadsTo fun same => unstopped (atJ.trans (congrArg some same.symm))
    · intro t step
      exact (forward s rfl).behind (List.mem_singleton_self s) (.single step)
  | @out path stop s stmts _ ih =>
    intro later decisions visited o resumes
    refine .later rfl (ih ?_ ?_ later decisions visited o resumes)
    · intro j atJ
      obtain ⟨some, always⟩ := sure j atJ
      cases target : g.execTarget? s "Out" with
      | none => simp [waysBehind_nil, target] at some
      | some t => exact always _ (by simp [waysBehind_nil, target])
    · intro t target
      exact forward t (by simp [Leads, waysBehind_nil, show g.execTarget? s "Out" = some t from target])
  | absent gone _ ih =>
    intro later decisions visited o resumes
    refine .absent gone (ih ?_ ?_ later decisions visited o resumes)
    · simpa only [ComesTo, waysBehind_absent gone] using sure
    · simpa only [Leads, waysBehind_absent gone] using forward
  | leave found leave leaves =>
    intro later decisions visited o resumes
    simp only [Stmt.runAll, leaves decisions, Outcome.andThen] at resumes
    obtain rfl : o = _ := resumes
    exact .leave found leave
  | @choice path stop s c rest n stmt bodies stmts found choice chooses _ _ branches behind =>
    rw [ComesTo, waysBehind_choice standard found choice] at sure
    simp only [Leads, waysBehind_choice standard found choice] at forward
    have continues : g.Simulates (.way (g.joinBehind? n)) stop stmts := by
      refine behind (fun j atJ => ?_) fun t joined => ?_
      · obtain ⟨some, always⟩ := sure j atJ
        obtain ⟨k, joined, ahead⟩ := exists_joinOfWays some always forward
        exact ⟨k, joined, ahead⟩
      · obtain ⟨some, always⟩ := leadsTo_of_joinOfWays? joined
        obtain ⟨way, member⟩ := List.exists_mem_of_ne_nil _ some
        obtain ⟨t', rfl, ahead⟩ := always way member
        exact (forward t' member).behind (List.mem_singleton_self t') ahead.reachable
    intro later decisions visited o resumes
    have resumes := resumes.split fun visited => continues later _ visited o
    rw [chooses decisions, resumes_behind] at resumes
    cases decisions with
    | nil =>
      obtain rfl : o = _ := resumes
      simpa [Outcome.deciding, Outcome.behind] using .undecided found choice
    | cons d decisions =>
      have member := NodeKind.exit_mem_exitNames choice d
      refine .decided found choice (branches _ member ?_ ?_ later decisions _ o resumes)
      · intro k joined
        exact (leadsTo_of_joinOfWays? joined).2 _ (List.mem_map_of_mem member)
      · intro t target
        exact forward t (target ▸ List.mem_map_of_mem member)
  | @loop path stop s c rest n stmt body stmts found loop loops inner _ bodyIh ih =>
    obtain ⟨stays, single⟩ := NodeKind.isLeave_of_isLoop loop
    rw [ComesTo, waysBehind_plain found stays single] at sure
    simp only [Leads, waysBehind_plain found stays single] at forward
    intro later decisions visited o resumes
    have resumes := resumes.split fun visited => ih sure forward later _ visited o
    rw [loops decisions, resumes_behind] at resumes
    have walks := bodyIh (fun j atJ => by simp at atJ) fun t => inner.flowsForward standard
    exact .entersLoop found loop (walks.rounds _ (Nat.lt_succ_self _) resumes)
  | plain found leave choice loop passes _ ih =>
    rw [ComesTo, waysBehind_plain found leave choice] at sure
    simp only [Leads, waysBehind_plain found leave choice] at forward
    intro later decisions visited o resumes
    have resumes := resumes.split fun visited => ih sure forward later _ visited o
    rw [passes decisions, resumes_behind, resumes_idle] at resumes
    exact .passes found leave choice loop resumes

/-- The walk from a stack does what the statements do that are emitted from the stack on. -/
theorem Emits.ends_iff (standard : g.Standard env) (emits : g.Emits [] none (.way (some s)) stmts)
    (decisions : List Int64) (o : Outcome) :
    Ends g (.start s decisions) o ↔ o = Stmt.runAll stmts decisions := by
  have walk : Ends g (.start s decisions) (Stmt.runAll stmts decisions) := by
    refine emits.simulates standard (fun j atJ => by simp at atJ)
      (fun t => emits.flowsForward standard) [] decisions [] _ ?_
    unfold Resumes
    split
    · rename_i finished
      refine .later rfl (.now ?_)
      simp [Walker.step, halt, goto, ← finished]
    · simp [Outcome.behind]
  exact ⟨fun ends => ends.unique walk, fun same => same ▸ walk⟩

end Graph

end NodeScript
