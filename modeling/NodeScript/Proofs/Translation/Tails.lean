import NodeScript.Proofs.Translation.ControlFlow
import NodeScript.Proofs.Translation.Cycles
import NodeScript.Proofs.Translation.Trails

/-!
What is emitted behind choices. The branches of a choice stop short of their join, since whatever
they pass comes before the join on every way; and all that the join leads to is passed behind the
choice, or behind the choices around it.
-/

namespace NodeScript

open Relation
open NodeScript.Graph (placed wired numbered)

namespace Graph

/-- Execution goes on from a stack to another; nothing is emitted for what is not a stack. -/
def PassesTo (g : Graph) (s t : NodeId) : Prop := g.IsStack s ∧ g.StepsTo s t

end Graph

/-- Every choice of a trail with a join leaves all that the join leads to out of its branches, bodies
of loops in them apart, and has it behind itself: in the chain of stacks that it ends a stack of, or
else in the chains around it, whose stacks behind the stop of the chain are the outer ones. The chain
goes on at the join unless this is where it stops. -/
def Trail.TailOnce (g : Graph) : Trail → (stop : Option NodeId) → (outer : List NodeId) → Prop
  | .done, _, _ => True
  | .stack _ behind, stop, outer => behind.TailOnce g stop outer
  | .choice _ join exits branches behind, stop, outer =>
    (∀ j, join = some j →
      (∀ t, ReflTransGen g.StepsTo j t → ∀ name ∈ exits, t ∉ (branches name).stacks) ∧
      (∀ t, ReflTransGen g.PassesTo j t → g.IsStack t → t ∈ behind.stacks ++ outer) ∧
      (g.IsStack j →
        if stop = some j then behind = .done ∧ outer.head? = some j
        else ∃ onward, behind = .stack j onward)) ∧
    (∀ name ∈ exits, (branches name).TailOnce g join (behind.stacks ++ outer)) ∧
    behind.TailOnce g stop outer
  | .loop _ body behind, stop, outer => body.TailOnce g none [] ∧ behind.TailOnce g stop outer

namespace Graph

variable {g : Graph} {s t j origin : NodeId} {path : List NodeId}

theorem Inevitable.trans (first : g.Inevitable j s) (second : g.Inevitable t j) :
    g.Inevitable t s := by
  induction first with
  | here => exact second
  | later goesOn _ ih => exact .later goesOn ih

/-- The stacks that a passage is linked to first. -/
def LinksFrom (g : Graph) : Passage → NodeId → Prop
  | .way target, t => target = some t
  | .nodes s rest, t => g.LinksBehind s rest t
  | .rounds _, _ => False

/-- The join of a choice comes behind a path that all the ways out of the choice come behind. -/
theorem Ahead.joinBehind {n : Node} (exits : ∀ name ∈ n.kind.exitNames, ∀ t,
    g.execTarget? n.id name = some t → g.Ahead origin path t) :
    ∀ j, g.joinBehind? n = some j → g.Ahead origin path j := by
  intro j joined
  obtain ⟨some, always⟩ := leadsTo_of_joinOfWays? joined
  obtain ⟨way, member⟩ := List.exists_mem_of_ne_nil _ some
  obtain ⟨o, rfl, sure⟩ := always way member
  obtain ⟨name, exit, target⟩ := List.mem_map.mp member
  exact (exits name exit o target).onward sure.linked

/-- Where no cycle is come to, execution flows forward. -/
theorem Ahead.flowsForward (ahead : g.Ahead origin path t) (clear : ¬ g.FlowsBack origin) :
    g.FlowsForward [t] := by
  intro o single x reach cycle
  obtain rfl := List.mem_singleton.mp single
  have linked := ReflTransGen.mono (fun _ _ => StepsTo.links) _ _ reach
  exact clear ⟨x, ahead.reached.trans linked, TransGen.mono (fun _ _ => StepsTo.links) _ _ cycle⟩

end Graph

namespace TranslationEnv

open NodeScript.Graph

variable {env : TranslationEnv} {denv : DefinitionEnv} {s t j o origin : NodeId}
  {path : List NodeId} {stop : Option NodeId} {passage : Passage} {stmts : List Stmt}
  {trail : Trail} {outer : List NodeId}

/-- All that is emitted up to a stop that it is sure to come to comes before the stop. -/
theorem Follows.before_stop (standard : env.graph.Standard denv)
    (follows : env.Follows path stop passage stmts trail) (sure : env.graph.ComesTo stop passage)
    (forward : ∀ t, env.graph.Leads passage t → env.graph.FlowsForward [t]) :
    ∀ j, stop = some j → ∀ t ∈ trail.stacks, env.graph.Inevitable j t ∧ t ≠ j := by
  induction follows with
  | stopped | nowhere | again | closed | leave => exact fun _ _ _ absurdity => nomatch absurdity
  | @stack path stop s stmts trail unstopped _ _ _ ih =>
    intro j atJ
    obtain ⟨_, same, always⟩ := sure j atJ
    obtain rfl := Option.some.inj same
    have different : s ≠ j := fun same => unstopped (atJ.trans (congrArg some same.symm))
    refine List.forall_mem_cons.mpr ⟨⟨always, different⟩, ih ?_ ?_ j atJ⟩
    · rintro j' atJ'
      obtain rfl := Option.some.inj (atJ.symm.trans atJ')
      exact always.leadsTo different
    · intro t step
      exact (forward s rfl).behind (List.mem_singleton_self s) (.single step)
  | @out path stop s stmts trail _ ih =>
    refine ih (fun j atJ => ?_) fun t target => ?_
    · obtain ⟨some, always⟩ := sure j atJ
      cases target : env.graph.execTarget? s "Out" with
      | none => simp [waysBehind_nil, target] at some
      | some t => exact always _ (by simp [waysBehind_nil, target])
    · have onward : env.graph.execTarget? s "Out" = some t := target
      exact forward t (by simp [Leads, waysBehind_nil, onward])
  | absent gone _ ih =>
    refine ih ?_ ?_
    · simpa only [ComesTo, waysBehind_absent gone] using sure
    · simpa only [Leads, waysBehind_absent gone] using forward
  | @choice path stop s c rest n hook stmt bodies branches stmts trail found choice _ _ _ _
      branch behind =>
    rw [ComesTo, waysBehind_choice standard found choice] at sure
    simp only [Leads, waysBehind_choice standard found choice] at forward
    rintro j rfl
    obtain ⟨some, always⟩ := sure j rfl
    obtain ⟨k, joined, ahead⟩ := exists_joinOfWays some always forward
    replace joined : env.graph.joinBehind? n = .some k := joined
    have leads := (leadsTo_of_joinOfWays? joined).2
    rw [Trail.stacks, List.forall_mem_append]
    refine ⟨fun t member => ?_, ?_⟩
    · obtain ⟨name, exit, inside⟩ := List.mem_flatMap.mp member
      have way := List.mem_map_of_mem (f := env.graph.execTarget? n.id) exit
      obtain ⟨certain, away⟩ := branch name exit
        (fun k' atK => (Option.some.inj (joined.symm.trans atK)) ▸ leads _ way)
        (fun t target => forward t (target ▸ way)) k joined t inside
      refine ⟨certain.trans ahead, ?_⟩
      rintro rfl
      -- the stop would come before the join and behind it
      obtain ⟨o, target, first⟩ := always _ way
      have back := (reflTransGen_iff_eq_or_transGen.mp certain.reachable).resolve_left away.symm
      exact forward o (target ▸ way) o (List.mem_singleton_self o) t first.reachable
        (back.trans_left ahead.reachable)
    · refine behind (fun j' atJ => ?_) (fun t target => ?_) j rfl
      · exact ⟨k, joined, Option.some.inj atJ ▸ ahead⟩
      · obtain rfl := Option.some.inj (joined.symm.trans target)
        obtain ⟨way, member⟩ := List.exists_mem_of_ne_nil _ some
        obtain ⟨o, rfl, first⟩ := leads way member
        exact (forward o member).behind (List.mem_singleton_self o) first.reachable
  | loop found loop _ _ _ _ _ ih =>
    obtain ⟨stays, single⟩ := NodeKind.isLeave_of_isLoop loop
    rw [ComesTo, waysBehind_plain found stays single] at sure
    simp only [Leads, waysBehind_plain found stays single] at forward
    exact ih sure forward
  | plain found leave choice _ _ _ ih =>
    rw [ComesTo, waysBehind_plain found leave choice] at sure
    simp only [Leads, waysBehind_plain found leave choice] at forward
    exact ih sure forward

/-- All that is passed before the stop is emitted. -/
theorem Follows.covers (standard : env.graph.Standard denv) (clear : ¬ env.graph.FlowsBack origin)
    (follows : env.Follows path stop passage stmts trail)
    (ahead : ∀ t, env.graph.LinksFrom passage t → env.graph.Ahead origin path t) :
    ∀ w, env.graph.Leads passage w → ∀ t, ReflTransGen (Before env.graph.PassesTo stop) w t →
      env.graph.IsStack t →
      stop ≠ some t → t ∈ trail.stacks := by
  induction follows with
  | @stopped path s =>
    intro w leads t reach _ before
    obtain rfl := Option.some.inj leads
    rcases reach.cases_head with rfl | ⟨_, step, _⟩
    · exact absurd rfl before
    · exact absurd rfl step.1
  | nowhere => exact fun w leads => nomatch leads
  | again _ inside => exact absurd ((ahead _ rfl).flowsBack inside) clear
  | closed _ other =>
    intro w leads t reach stack _
    obtain rfl := Option.some.inj leads
    rcases reach.cases_head with rfl | ⟨_, step, _⟩
    · exact absurd stack other
    · exact absurd step.2.1 other
  | @stack path stop s stmts trail _ _ _ _ ih =>
    intro w leads t reach stack before
    obtain rfl := Option.some.inj leads
    rcases reach.cases_head with rfl | ⟨x, step, onward⟩
    · exact .head _
    · refine .tail _ (ih (fun t link => (ahead s rfl).next link) x ?_ t onward stack before)
      exact step.2.2
  | out _ ih =>
    refine fun w leads => ih (fun t target => ahead t (linksBehind_nil.mpr target)) w ?_
    simpa [Leads, waysBehind_nil] using leads
  | absent gone _ ih =>
    refine fun w leads => ih (fun t link => ahead t ((linksBehind_absent gone).mpr link)) w ?_
    rwa [Leads, waysBehind_absent gone] at leads
  | leave found leave => exact fun w leads => by simp [Leads, waysBehind_leave found leave] at leads
  | @choice path stop s c rest n hook stmt bodies branches stmts trail found choice _ _ _ _
      branch behind =>
    intro w leads t reach stack before
    have exits : ∀ name ∈ n.kind.exitNames, ∀ t, env.graph.execTarget? n.id name = some t →
        env.graph.Ahead origin path t := fun name exit t target =>
      ahead t ((linksBehind_choice standard found choice).mpr ⟨name, exit, target⟩)
    have joined := Ahead.joinBehind exits
    rw [Leads, waysBehind_choice standard found choice] at leads
    obtain ⟨name, exit, target⟩ := List.mem_map.mp leads
    rw [Trail.stacks, List.mem_append]
    rcases reach_split (env.graph.joinBehind? n) reach with near | ⟨j, atJ, far⟩
    · by_cases atT : env.graph.joinBehind? n = some t
      · exact .inr (behind joined t atT t .refl stack before)
      · refine .inl (List.mem_flatMap.mpr ⟨name, exit, ?_⟩)
        exact branch name exit (exits name exit) w target t near stack atT
    · exact .inr (behind joined j atJ t far stack before)
  | loop found loop _ _ _ _ _ ih =>
    obtain ⟨stays, single⟩ := NodeKind.isLeave_of_isLoop loop
    refine fun w leads => ih (fun t link => ahead t ?_) w ?_
    · exact (linksBehind_passed found stays single).mpr (.inr link)
    · rwa [Leads, waysBehind_plain found stays single] at leads
  | plain found leave choice _ _ _ ih =>
    refine fun w leads => ih (fun t link => ahead t ?_) w ?_
    · exact (linksBehind_passed found leave choice).mpr (.inr link)
    · rwa [Leads, waysBehind_plain found leave choice] at leads

/-- From where a chain stops, the chains around it go on. -/
def GoesOn (env : TranslationEnv) (stop : Option NodeId) (outer : List NodeId) : Prop :=
  ∀ j, stop = some j → (∀ t, ReflTransGen env.graph.PassesTo j t → env.graph.IsStack t →
    t ∈ outer) ∧
    (env.graph.IsStack j → outer.head? = some j)

/-- A chain begins with the stack that it leads to, unless it stops there. -/
theorem Follows.first (follows : env.Follows path stop (.way (some j)) stmts trail)
    (outside : j ∉ path) (stack : env.graph.IsStack j) :
    if stop = some j then trail = .done else ∃ onward, trail = .stack j onward := by
  cases follows with
  | stopped => rw [if_pos rfl]
  | again _ inside => exact absurd inside outside
  | closed _ other => exact absurd stack other
  | stack goesOn =>
    rw [if_neg goesOn]
    exact ⟨_, rfl⟩

/-- Where a choice goes on at its join, the chains around its branches go on. -/
theorem GoesOn.behind (standard : env.graph.Standard denv) (clear : ¬ env.graph.FlowsBack origin)
    (goes : env.GoesOn stop outer) {join : Option NodeId}
    (follows : env.Follows path stop (.way join) stmts trail)
    (ahead : ∀ j, join = some j → env.graph.Ahead origin path j) :
    env.GoesOn join (trail.stacks ++ outer) := by
  rintro j rfl
  have outside : j ∉ path := fun inside => clear ((ahead j rfl).flowsBack inside)
  constructor
  · intro t reach stack
    have unbound : ReflTransGen (Before env.graph.PassesTo none) j t :=
      ReflTransGen.mono (fun _ _ step => ⟨nofun, step⟩) _ _ reach
    rw [List.mem_append]
    rcases reach_split stop unbound with near | ⟨k, atK, far⟩
    · by_cases atT : stop = some t
      · exact .inr ((goes t atT).1 t .refl stack)
      · exact .inl (follows.covers standard clear ahead j rfl t near stack atT)
    · exact .inr ((goes k atK).1 t (ReflTransGen.mono (fun _ _ step => step.2) _ _ far) stack)
  · intro stack
    have first := follows.first outside stack
    split at first
    · rename_i stops
      rw [first]
      exact (goes j stops).2 stack
    · obtain ⟨onward, rfl⟩ := first
      rfl

/-- The choices of a trail leave what their joins lead to out of their branches. -/
theorem Follows.tailOnce (standard : env.graph.Standard denv) (clear : ¬ env.graph.FlowsBack origin)
    (follows : env.Follows path stop passage stmts trail)
    (ahead : ∀ t, env.graph.LinksFrom passage t → env.graph.Ahead origin path t)
    (goes : env.GoesOn stop outer) :
    trail.TailOnce env.graph stop outer := by
  induction follows generalizing outer with
  | stopped | nowhere | again | closed | leave => trivial
  | @stack path stop s stmts trail _ _ _ _ ih => exact ih (fun t link => (ahead s rfl).next link) goes
  | out _ ih => exact ih (fun t target => ahead t (linksBehind_nil.mpr target)) goes
  | absent gone _ ih =>
    exact ih (fun t link => ahead t ((linksBehind_absent gone).mpr link)) goes
  | @choice path stop s c rest n hook stmt bodies branches stmts trail found choice _ _ branch
      behind branchIh ih =>
    have exits : ∀ name ∈ n.kind.exitNames, ∀ t, env.graph.execTarget? n.id name = some t →
        env.graph.Ahead origin path t := fun name exit t target =>
      ahead t ((linksBehind_choice standard found choice).mpr ⟨name, exit, target⟩)
    have onward := goes.behind standard clear behind (Ahead.joinBehind exits)
    refine ⟨fun j joined => ⟨?_, (onward j joined).1, fun stack => ?_⟩, ?_, ?_⟩
    · intro t reach name exit inside
      have leads := (leadsTo_of_joinOfWays? joined).2 _
        (List.mem_map_of_mem (f := env.graph.execTarget? n.id) exit)
      obtain ⟨sure, away⟩ := (branch name exit).before_stop standard
        (fun j' joined' => Option.some.inj (joined.symm.trans joined') ▸ leads)
        (fun t target => (exits name exit t target).flowsForward clear) j joined t inside
      have back := (reflTransGen_iff_eq_or_transGen.mp sure.reachable).resolve_left away.symm
      exact (Ahead.joinBehind exits j joined).flowsForward clear j (List.mem_singleton_self j) t reach
        (back.trans_left reach)
    · have outside : j ∉ path := fun inside =>
        clear ((Ahead.joinBehind exits j joined).flowsBack inside)
      rw [joined] at behind
      have first := behind.first outside stack
      split at first
      · rename_i stops
        rw [if_pos stops]
        exact ⟨first, (goes j stops).2 stack⟩
      · rename_i goesOn
        rwa [if_neg goesOn]
    · exact fun name exit => branchIh name exit (exits name exit) onward
    · exact ih (Ahead.joinBehind exits) goes
  | loop found loop _ _ _ _ innerIh ih =>
    obtain ⟨stays, single⟩ := NodeKind.isLeave_of_isLoop loop
    refine ⟨innerIh (fun t target => ahead t ?_) nofun, ih (fun t link => ahead t ?_) goes⟩
    · exact (linksBehind_passed found stays single).mpr (.inl ⟨loop, target⟩)
    · exact (linksBehind_passed found stays single).mpr (.inr link)
  | plain found leave choice _ _ _ ih =>
    refine ih (fun t link => ahead t ?_) goes
    exact (linksBehind_passed found leave choice).mpr (.inr link)

end TranslationEnv

/-! ### Emitted statements -/

/-- A statement is one of a block, or of a branch of a choice in it, at any depth, but of no body of
a loop. -/
inductive StandsBeside : Stmt → List Stmt → Prop
  | here {stmt block} : stmt ∈ block → StandsBeside stmt block
  | inside {stmt outer body block} : outer ∈ block → outer.isChoice = true → body ∈ outer.bodies →
      StandsBeside stmt body → StandsBeside stmt block

/-- Statements of a chain that stops at a stack, and what is behind them in the chains around it,
from the nearest on. -/
structure Continuation where
  stop : Option NodeId
  block : List Stmt
  around : List (List Stmt)

/-- A statement stands in a block, at any depth, and what is behind it. The branches of a choice
stop at its join, and what is behind the choice is around them; the body of a loop does not stop,
and has nothing around it. -/
inductive Graph.StandsBefore (g : Graph) : Continuation → Stmt → Continuation → Prop
  | here {stop stmt rest around} :
      StandsBefore g ⟨stop, stmt :: rest, around⟩ stmt ⟨stop, rest, around⟩
  | behind {stop first rest around stmt k} : StandsBefore g ⟨stop, rest, around⟩ stmt k →
      StandsBefore g ⟨stop, first :: rest, around⟩ stmt k
  | branch {stop first c n body rest around stmt k} : first.isChoice = true →
      first.origin = some c → g.node? c = some n → body ∈ first.bodies →
      StandsBefore g ⟨g.joinBehind? n, body, rest :: around⟩ stmt k →
      StandsBefore g ⟨stop, first :: rest, around⟩ stmt k
  | loop {stop first body rest around stmt k} : first.isChoice = false → body ∈ first.bodies →
      StandsBefore g ⟨none, body, []⟩ stmt k → StandsBefore g ⟨stop, first :: rest, around⟩ stmt k

/-- The first of the blocks that is not empty begins with the code. -/
inductive Continues (code : List Stmt) : List (List Stmt) → Prop
  | here {rest around} : Continues code ((code ++ rest) :: around)
  | later {around} : Continues code around → Continues code ([] :: around)

section Blocks

variable {stmt : Stmt} {a b block : List Stmt} {g : Graph} {stop : Option NodeId}
  {around : List (List Stmt)} {k : Continuation}

theorem StandsBeside.append (beside : StandsBeside stmt (a ++ b)) :
    StandsBeside stmt a ∨ StandsBeside stmt b := by
  cases beside with
  | here member => exact (List.mem_append.mp member).imp .here .here
  | inside member choice body within =>
    exact (List.mem_append.mp member).imp (.inside · choice body within)
      (.inside · choice body within)

theorem StandsBeside.mem (beside : StandsBeside stmt block)
    (flat : ∀ stmt ∈ block, stmt.bodies = []) : stmt ∈ block := by
  cases beside with
  | here member => exact member
  | inside member _ body => exact absurd (flat _ member ▸ body) List.not_mem_nil

/-- A choice is behind statements without any inside. -/
theorem Graph.StandsBefore.of_append (before : g.StandsBefore ⟨stop, a ++ b, around⟩ stmt k)
    (flat : ∀ stmt ∈ a, stmt.bodies = []) (choice : stmt.isChoice = true) :
    g.StandsBefore ⟨stop, b, around⟩ stmt k := by
  induction a with
  | nil => exact before
  | cons first rest ih =>
    obtain ⟨single, others⟩ := List.forall_mem_cons.mp flat
    cases before with
    | here => exact absurd choice (by simp [Stmt.isChoice_of_flat single])
    | behind before => exact ih before others
    | branch _ _ _ body | loop _ body => exact absurd (single ▸ body) List.not_mem_nil

end Blocks

/-- The nodes of a stack that a passage goes on with. -/
def Passage.held : Passage → List NodeId
  | .nodes _ rest => rest
  | _ => []

namespace TranslationEnv

open NodeScript.Graph

/-- The statements of a stack stand in a block, one behind the other, or in a branch of a choice in
it, but in no body of a loop. -/
inductive Emits (env : TranslationEnv) (t : NodeId) : List Stmt → Prop
  | here {before code behind} : env.StackCode (env.graph.children t) code →
      Emits env t (before ++ code ++ behind)
  | inside {stmt body block} : stmt ∈ block → stmt.isChoice = true → body ∈ stmt.bodies →
      Emits env t body → Emits env t block

/-- A choice with a join leaves all that the join leads to out of its branches, bodies of loops in
them apart: every statement there is one of a stack that the join does not lead to. All stacks from
the join on are emitted behind the choice, in its chain or in those around it, which go on with the
join; where the chain stops at the join, nothing is behind the choice in it. -/
structure TailBehind (env : TranslationEnv) (choice : Stmt) (k : Continuation) (j : NodeId) :
    Prop where
  apart : ∀ body ∈ choice.bodies, ∀ stmt, StandsBeside stmt body → ∃ t, env.graph.IsStack t ∧
    ¬ ReflTransGen env.graph.StepsTo j t ∧ ∃ c ∈ env.graph.children t, stmt.origin = some c
  emitted : ∀ t, ReflTransGen env.graph.PassesTo j t → env.graph.IsStack t →
    ∃ block ∈ k.block :: k.around, env.Emits t block
  onward : env.graph.IsStack j → ∃ code, env.StackCode (env.graph.children j) code ∧
    if k.stop = some j then k.block = [] ∧ Continues code k.around else code <+: k.block

/-- Every choice in the statements is that of a node, and if the node has a join, what it leads to
is emitted behind the choice and not in its branches. -/
def TailsBehind (env : TranslationEnv) (code : Continuation) : Prop :=
  ∀ choice k, env.graph.StandsBefore code choice k → choice.isChoice = true →
    ∃ c n, choice.origin = some c ∧ env.graph.node? c = some n ∧ n.kind.isBranching = true ∧
      ∀ j, env.graph.joinBehind? n = some j → env.TailBehind choice k j

variable {env : TranslationEnv} {denv : DefinitionEnv} {t s : NodeId} {rest : List NodeId}
  {path : List NodeId} {stop : Option NodeId} {passage : Passage} {stmts a b : List Stmt}
  {trail : Trail} {outer : List NodeId} {around : List (List Stmt)} {k : Continuation}

theorem Emits.append (emits : env.Emits t b) : env.Emits t (a ++ b) := by
  cases emits with
  | @here before _ behind code =>
    rw [← List.append_assoc, ← List.append_assoc]
    exact .here code
  | inside member choice body within =>
    exact .inside (List.mem_append_right _ member) choice body within

/-- What is emitted for a stack begins with the statements of its nodes. -/
theorem Follows.stackCode (follows : env.Follows path stop (.nodes s rest) stmts trail) :
    ∃ code, env.StackCode rest code ∧ code <+: stmts := by
  generalize held : Passage.nodes s rest = passage at follows
  induction follows generalizing rest with
  | stopped | nowhere | again | closed | stack => exact nomatch held
  | out =>
    obtain ⟨-, rfl⟩ := Passage.nodes.inj held
    exact ⟨[], .done, List.nil_prefix⟩
  | absent gone _ ih =>
    obtain ⟨rfl, rfl⟩ := Passage.nodes.inj held
    obtain ⟨code, stack, front⟩ := ih rfl
    exact ⟨code, .absent gone stack, front⟩
  | leave found leave code =>
    obtain ⟨-, rfl⟩ := Passage.nodes.inj held
    exact ⟨_, .last found (.inl leave) code, List.prefix_rfl⟩
  | @choice _ _ _ _ _ _ hook stmt _ _ stmts _ found choice code =>
    obtain ⟨-, rfl⟩ := Passage.nodes.inj held
    refine ⟨_, .last found (.inr choice) code, ?_⟩
    rw [List.append_cons hook stmt stmts]
    exact List.prefix_append _ _
  | @loop _ _ _ _ _ _ hook stmt _ _ stmts _ found loop code _ _ _ _ ih =>
    obtain ⟨rfl, rfl⟩ := Passage.nodes.inj held
    obtain ⟨others, stack, front⟩ := ih rfl
    obtain ⟨leave, choice⟩ := NodeKind.isLeave_of_isLoop loop
    refine ⟨_, .next found leave choice code stack, ?_⟩
    rw [List.append_cons hook stmt stmts]
    exact (List.prefix_append_right_inj _).mpr front
  | plain found leave choice _ code _ ih =>
    obtain ⟨rfl, rfl⟩ := Passage.nodes.inj held
    obtain ⟨others, stack, front⟩ := ih rfl
    exact ⟨_, .next found leave choice code stack, (List.prefix_append_right_inj _).mpr front⟩

theorem Follows.eq_nil {target : Option NodeId}
    (follows : env.Follows path stop (.way target) stmts .done) : stmts = [] := by
  cases follows <;> rfl

/-- A chain that goes on with a stack begins with its code. -/
theorem Follows.begins {target : Option NodeId}
    (follows : env.Follows path stop (.way target) stmts (.stack s trail)) :
    ∃ code, env.StackCode (env.graph.children s) code ∧ code <+: stmts := by
  cases follows with
  | stack _ _ _ nodes => exact nodes.stackCode

/-- The stacks of a trail are emitted. -/
theorem Follows.emits (follows : env.Follows path stop passage stmts trail) :
    ∀ t ∈ trail.stacks, env.Emits t stmts := by
  induction follows with
  | stopped | nowhere | again | closed | leave => exact nofun
  | stack _ _ _ follows ih =>
    refine List.forall_mem_cons.mpr ⟨?_, ih⟩
    obtain ⟨code, stack, behind, rfl⟩ := follows.stackCode
    exact @Emits.here env _ [] code behind stack
  | out _ ih | absent _ _ ih => exact ih
  | plain _ _ _ _ _ _ ih => exact fun t member => (ih t member).append
  | loop _ _ _ _ _ _ _ ih =>
    intro t member
    exact List.append_cons .. ▸ (ih t member).append
  | @choice _ _ _ _ _ n hook stmt bodies _ _ _ _ choice code blocks _ _ branchIh ih =>
    intro t member
    rcases List.mem_append.mp member with inside | behind
    · obtain ⟨name, exit, inside⟩ := List.mem_flatMap.mp inside
      refine .inside (List.mem_append_right _ (.head _)) (code.choice choice).2 ?_
        (branchIh name exit t inside)
      exact blocks ▸ List.mem_map_of_mem exit
    · exact List.append_cons .. ▸ (ih t behind).append

/-- Every statement that is emitted, bodies of loops apart, is one of a node of a stack of the
trail, or of one of those that the passage begins with. -/
theorem Follows.origin (standard : env.graph.Standard denv)
    (follows : env.Follows path stop passage stmts trail) :
    ∀ stmt, StandsBeside stmt stmts → (∃ c ∈ passage.held, stmt.origin = some c) ∨
      ∃ t ∈ trail.stacks, env.graph.IsStack t ∧
        ∃ c ∈ env.graph.children t, stmt.origin = some c := by
  induction follows with
  | stopped | nowhere | again | closed =>
    rintro stmt (⟨⟨⟩⟩ | ⟨⟨⟩⟩)
  | stack _ _ stack _ ih =>
    intro stmt beside
    rcases ih stmt beside with held | ⟨t, member, own⟩
    · exact .inr ⟨_, .head _, stack, held⟩
    · exact .inr ⟨t, .tail _ member, own⟩
  | out _ ih =>
    intro stmt beside
    exact .inr ((ih stmt beside).resolve_left fun ⟨_, held, _⟩ => List.not_mem_nil held)
  | absent _ _ ih =>
    exact fun stmt beside => (ih stmt beside).imp_left fun ⟨c, held, own⟩ => ⟨c, .tail _ held, own⟩
  | leave found leave code =>
    intro stmt beside
    obtain ⟨choice, loop⟩ := NodeKind.single_of_isLeave leave
    have single := beside.mem (code.flat (standard.builtIn found) choice loop)
    exact .inl ⟨_, .head _, code.origin (standard.filed found) (standard.builtIn found) _ single⟩
  | @plain _ _ _ c _ _ _ _ _ found leave choice loop code _ ih =>
    intro stmt beside
    rcases beside.append with here | behind
    · have single := here.mem (code.flat (standard.builtIn found) choice loop)
      exact .inl ⟨c, .head _, code.origin (standard.filed found) (standard.builtIn found) _ single⟩
    · exact (ih stmt behind).imp_left fun ⟨c, held, own⟩ => ⟨c, .tail _ held, own⟩
  | @loop _ _ _ c _ _ hook first _ _ _ _ found loop code _ _ _ _ ih =>
    intro stmt beside
    obtain ⟨flat, single⟩ := code.loop (standard.builtIn found) loop
    have own := code.origin (standard.filed found) (standard.builtIn found)
    rw [List.append_cons] at beside
    rcases beside.append with here | behind
    · cases here with
      | here member => exact .inl ⟨c, .head _, own stmt member⟩
      | inside member choice body =>
        rcases List.mem_append.mp member with front | last
        · exact absurd (flat _ front ▸ body) List.not_mem_nil
        · exact absurd choice (by simp [List.mem_singleton.mp last, single])
    · exact (ih stmt behind).imp_left fun ⟨c, held, own⟩ => ⟨c, .tail _ held, own⟩
  | @choice _ _ _ c _ n hook first bodies _ _ _ found choice code blocks _ _ branchIh ih =>
    intro stmt beside
    have own := code.origin (standard.filed found) (standard.builtIn found)
    rw [List.append_cons] at beside
    rcases beside.append with here | behind
    · cases here with
      | here member => exact .inl ⟨c, .head _, own stmt member⟩
      | inside member _ body within =>
        rcases List.mem_append.mp member with front | last
        · exact absurd ((code.choice choice).1 _ front ▸ body) List.not_mem_nil
        · rw [List.mem_singleton.mp last, blocks] at body
          obtain ⟨name, exit, rfl⟩ := List.mem_map.mp body
          obtain ⟨t, member, stack⟩ := (branchIh name exit stmt within).resolve_left
            fun ⟨_, held, _⟩ => List.not_mem_nil held
          exact .inr ⟨t, List.mem_append_left _ (List.mem_flatMap.mpr ⟨name, exit, member⟩), stack⟩
    · obtain ⟨t, member, stack⟩ := (ih stmt behind).resolve_left
        fun ⟨_, held, _⟩ => List.not_mem_nil held
      exact .inr ⟨t, List.mem_append_right _ member, stack⟩

/-- Where a chain goes on at the stop, the blocks around it go on with the code of that stack. -/
structure GoesOnIn (env : TranslationEnv) (stop : Option NodeId) (outer : List NodeId)
    (around : List (List Stmt)) : Prop where
  emits : ∀ t ∈ outer, ∃ block ∈ around, env.Emits t block
  continues : ∀ j, stop = some j → env.graph.IsStack j →
    ∃ code, env.StackCode (env.graph.children j) code ∧ Continues code around

/-- Behind every choice is what its join leads to. -/
theorem Follows.tailBehind (standard : env.graph.Standard denv)
    (follows : env.Follows path stop passage stmts trail)
    (once : trail.TailOnce env.graph stop outer) (goes : env.GoesOnIn stop outer around) :
    env.TailsBehind ⟨stop, stmts, around⟩ := by
  induction follows generalizing outer around with
  | stopped | nowhere | again | closed => exact fun choice k before => nomatch before
  | stack _ _ _ _ ih | out _ ih | absent _ _ ih => exact ih once goes
  | @leave _ _ _ _ _ _ own found leave code =>
    intro stmt k before isChoice
    obtain ⟨choice, loop⟩ := NodeKind.single_of_isLeave leave
    have flat := code.flat (standard.builtIn found) choice loop
    rw [← List.append_nil own] at before
    exact nomatch before.of_append flat isChoice
  | plain found leave choice loop code _ ih =>
    intro stmt k before isChoice
    have flat := code.flat (standard.builtIn found) choice loop
    exact ih once goes stmt k (before.of_append flat isChoice) isChoice
  | @loop _ _ _ _ _ _ hook first _ _ _ _ found loop code blocks _ _ innerIh ih =>
    intro stmt k before isChoice
    obtain ⟨flat, single⟩ := code.loop (standard.builtIn found) loop
    cases before.of_append flat isChoice with
    | here => exact absurd isChoice (by simp [single])
    | behind before => exact ih once.2 goes stmt k before isChoice
    | branch choice => exact absurd choice (by simp [single])
    | loop _ body before =>
      obtain rfl := List.mem_singleton.mp (blocks ▸ body)
      exact innerIh once.1 ⟨nofun, nofun⟩ stmt k before isChoice
  | @choice _ stop _ c _ n hook first bodies branches stmts trail found choice code blocks branch
      behind branchIh ih =>
    intro stmt k before isChoice
    obtain ⟨flat, chooses⟩ := code.choice choice
    obtain ⟨tail, inner, after⟩ := once
    have own := code.origin (standard.filed found) (standard.builtIn found) first (by simp)
    -- the branches stop at the join, and the chain goes on with it or has stopped at it
    have onward : ∀ j, env.graph.joinBehind? n = some j → env.graph.IsStack j →
        ∃ code, env.StackCode (env.graph.children j) code ∧
          if stop = some j then stmts = [] ∧ Continues code around else code <+: stmts := by
      intro j joined stack
      have on := (tail j joined).2.2 stack
      split at on
      · rename_i stops
        obtain ⟨rfl, -⟩ := on
        obtain ⟨code, whole, continues⟩ := goes.continues j stops stack
        refine ⟨code, whole, ?_⟩
        rw [if_pos stops]
        exact ⟨behind.eq_nil, continues⟩
      · rename_i goesOn
        obtain ⟨later, rfl⟩ := on
        obtain ⟨code, whole, front⟩ := behind.begins
        refine ⟨code, whole, ?_⟩
        rwa [if_neg goesOn]
    have inside : env.GoesOnIn (env.graph.joinBehind? n) (trail.stacks ++ outer)
        (stmts :: around) := by
      constructor
      · intro t member
        rcases List.mem_append.mp member with here | outside
        · exact ⟨stmts, .head _, behind.emits t here⟩
        · obtain ⟨block, member, emits⟩ := goes.emits t outside
          exact ⟨block, .tail _ member, emits⟩
      · intro j joined stack
        obtain ⟨code, whole, on⟩ := onward j joined stack
        refine ⟨code, whole, ?_⟩
        split at on
        · obtain ⟨rfl, continues⟩ := on
          exact .later continues
        · obtain ⟨rest, rfl⟩ := on
          exact .here
    cases before.of_append flat isChoice with
    | here =>
      refine ⟨c, n, own, found, choice, fun j joined => ⟨?_, ?_, onward j joined⟩⟩
      · intro body member stmt beside
        rw [blocks] at member
        obtain ⟨name, exit, rfl⟩ := List.mem_map.mp member
        obtain ⟨t, member, stack, held⟩ :=
          ((branch name exit).origin standard stmt beside).resolve_left
          fun ⟨_, held, _⟩ => List.not_mem_nil held
        exact ⟨t, stack, fun reach => (tail j joined).1 t reach name exit member, held⟩
      · intro t reach stack
        exact inside.emits t ((tail j joined).2.1 t reach stack)
    | behind before => exact ih after goes stmt k before isChoice
    | @branch _ _ _ n' body _ _ _ _ _ origin found' member before =>
      obtain rfl := Option.some.inj (own.symm.trans origin)
      obtain rfl := Option.some.inj (found.symm.trans found')
      rw [blocks] at member
      obtain ⟨name, exit, rfl⟩ := List.mem_map.mp member
      exact branchIh name exit (inner name exit) inside stmt k before isChoice
    | loop single => exact absurd chooses (by simp [single])

end TranslationEnv

/-- Behind every choice that is emitted for a function from which no cycle of execution is come to
is what its join leads to, and nothing of this in its branches; and the trail that the statements
leave has it there once. -/
theorem TranslationEnv.functionBody_tailOnce (env : TranslationEnv) (denv : DefinitionEnv)
    (standard : env.graph.Standard denv) (function : NodeId)
    (clear : ¬ env.graph.FlowsBack function) (s : TranslatorState) :
    env.TailsBehind ⟨none, ((env.functionBody function).run s).1, []⟩ ∧
      ∃ trail, env.Follows [] none (.way (some function))
          ((env.functionBody function).run s).1 trail ∧
        trail.TailOnce env.graph none [] := by
  obtain ⟨trail, follows⟩ := env.functionBody_follows standard function s
  have once : trail.TailOnce env.graph none [] := by
    refine follows.tailOnce standard clear ?_ nofun
    rintro t ⟨⟩
    exact .of_origin
  exact ⟨follows.tailBehind standard once ⟨nofun, nofun⟩, trail, follows, once⟩

/-- A number that rises with every link leaves no way back. -/
theorem Graph.not_flowsBack_of_rises {g : Graph} {function : NodeId}
    (rises : ∀ entry ∈ g.nodes.entries, ∀ t ∈ g.linkTargets entry.1,
      entry.1.uuid.bits.toNat < t.uuid.bits.toNat) : ¬ g.FlowsBack function := by
  rintro ⟨x, -, cycle⟩
  have step : ∀ {s t}, g.LinksTo s t → s.uuid.bits.toNat < t.uuid.bits.toNat := by
    intro s t link
    cases found : g.node? s with
    | none => exact absurd link (not_linksTo_missing found)
    | some n =>
      exact rises (s, n) (OrderedMap.get?_eq_some_iff.mp found) t (mem_linkTargets.mpr link)
  have path : ∀ {s t}, TransGen g.LinksTo s t → s.uuid.bits.toNat < t.uuid.bits.toNat := by
    intro s t path
    induction path with
    | single link => exact step link
    | tail _ link ih => exact ih.trans (step link)
  exact Nat.lt_irrefl _ (path cycle)

/-- The patrol goes on behind its choice at the stack where the branches meet. -/
theorem TranslationEnv.functionBody_tailOnce_patrol :
    let env : TranslationEnv := ⟨patrol, TypeDatabase.empty.toOracle, .standard, ∅⟩
    let start : NodeId := ⟨numbered 10⟩
    let s : TranslatorState := ⟨.empty, none, ∅, [], []⟩
    patrol.Standard ⟨env.oracle, ∅⟩ ∧ ¬ patrol.FlowsBack start ∧
      (patrol.node? ⟨numbered 20⟩).bind patrol.joinBehind? = some ⟨numbered 50⟩ ∧
      env.TailsBehind ⟨none, ((env.functionBody start).run s).1, []⟩ ∧
      ∃ trail, env.Follows [] none (.way (some start)) ((env.functionBody start).run s).1 trail ∧
        trail.TailOnce patrol none [] := by
  have standard : patrol.Standard ⟨TypeDatabase.empty.toOracle, ∅⟩ := .of_entries (by decide)
  have clear : ¬ patrol.FlowsBack ⟨numbered 10⟩ := Graph.not_flowsBack_of_rises (by decide)
  refine ⟨standard, clear, by cbv, ?_⟩
  exact functionBody_tailOnce ⟨patrol, TypeDatabase.empty.toOracle, .standard, ∅⟩ _ standard _ clear
    ⟨.empty, none, ∅, [], []⟩

/-- A function that chooses between two ways into an operator, which holds a choice that leads into a
stack. -/
def hideout : Graph :=
  let choicePorts := [PortSpec.dataInput "Condition" .bool, .execOutput "Then", .execOutput "Else"]
  { Graph.empty "Hideout" with
    nodes := ⟨
      [placed 10 (.function (.onEvent .start)) none [⟨numbered 20⟩] [.execOutput "Out"],
        placed 20 .branch (some ⟨numbered 10⟩) [] choicePorts,
        placed 30 (.unary .not) none [⟨numbered 40⟩] [.dataInput "Value" .unknown,
          .dataOutput "Result" .unknown],
        placed 40 .branch (some ⟨numbered 30⟩) [] choicePorts,
        placed 50 .stack none [⟨numbered 60⟩] [.execInput "In", .execOutput "Out"],
        placed 60 .leave (some ⟨numbered 50⟩) [] []], by decide⟩
    edges := ⟨[wired 71 20 22 30 31, wired 72 20 23 30 31, wired 73 40 42 50 51], by decide⟩ }

/-- A function that chooses between a stack and the end. The stack holds a choice without an output
for its second branch, and the first leads to the end too. -/
def lopsided : Graph :=
  let choicePorts := [PortSpec.dataInput "Condition" .bool, .execOutput "Then", .execOutput "Else"]
  let stackPorts := [PortSpec.execInput "In", .execOutput "Out"]
  { Graph.empty "Lopsided" with
    nodes := ⟨
      [placed 10 (.function (.onEvent .start)) none [⟨numbered 20⟩] [.execOutput "Out"],
        placed 20 .branch (some ⟨numbered 10⟩) [] choicePorts,
        placed 30 .stack none [⟨numbered 40⟩] stackPorts,
        placed 40 .branch (some ⟨numbered 30⟩) [] [.dataInput "Condition" .bool, .execOutput "Then"],
        placed 50 .stack none [⟨numbered 60⟩] stackPorts,
        placed 60 .leave (some ⟨numbered 50⟩) [] []], by decide⟩
    edges := ⟨[wired 71 20 22 30 31, wired 72 20 23 50 51, wired 73 40 42 50 51], by decide⟩ }

/-- The statements of the first function of a graph that is without types and extensions. -/
def Graph.emitted (g : Graph) : List Stmt :=
  ((TranslationEnv.functionBody ⟨g, TypeDatabase.empty.toOracle, .standard, ∅⟩ ⟨numbered 10⟩).run
    ⟨.empty, none, ∅, [], []⟩).1

/-- Where a join is not a stack, stacks behind it are not emitted at all; and where a choice has not
the outputs of its kind, the join of a choice around it is emitted inside the branches. -/
theorem TranslationEnv.functionBody_tailOnce_astray :
    (hideout.Standard ⟨TypeDatabase.empty.toOracle, ∅⟩ ∧ ¬ hideout.FlowsBack ⟨numbered 10⟩ ∧
      (hideout.node? ⟨numbered 20⟩).bind hideout.joinBehind? = some ⟨numbered 30⟩ ∧
      hideout.StepsTo ⟨numbered 30⟩ ⟨numbered 50⟩ ∧ hideout.IsStack ⟨numbered 50⟩ ∧
      hideout.children ⟨numbered 50⟩ = [⟨numbered 60⟩] ∧
      ∀ stmt, StandsIn stmt hideout.emitted → stmt.origin ≠ some ⟨numbered 60⟩) ∧
    ((∀ entry ∈ lopsided.nodes.entries, entry.2.kind.isBuiltIn = true) ∧
      ¬ lopsided.FlowsBack ⟨numbered 10⟩ ∧
      (lopsided.node? ⟨numbered 20⟩).bind lopsided.joinBehind? = some ⟨numbered 50⟩ ∧
      lopsided.IsStack ⟨numbered 50⟩ ∧ lopsided.children ⟨numbered 50⟩ = [⟨numbered 60⟩] ∧
      ∃ condition thenBody behind,
        lopsided.emitted = .branch (some ⟨numbered 20⟩) condition thenBody [] :: behind ∧
        StandsIn (.leave (some ⟨numbered 60⟩) none) thenBody) := by
  refine ⟨⟨.of_entries (by decide), Graph.not_flowsBack_of_rises (by decide), by cbv, ?_, ?_,
    by decide, ?_⟩, by decide, Graph.not_flowsBack_of_rises (by decide), by cbv, ?_, by decide, ?_⟩
  · exact (by decide : some ⟨numbered 50⟩ ∈ hideout.successors ⟨numbered 30⟩)
  · exact ⟨_, rfl, rfl⟩
  · have all : hideout.emitted = [.branch (some ⟨numbered 20⟩) (.literal "true") [] []] := by cbv
    rw [all]
    intro stmt standing
    cases standing with
    | here member =>
      rw [List.mem_singleton.mp member]
      exact fun same => absurd (Option.some.inj same) (by decide)
    | inside outer body within =>
      rw [List.mem_singleton.mp outer] at body
      simp only [Stmt.bodies, List.mem_cons, List.not_mem_nil, or_false, or_self] at body
      cases body ▸ within with
      | here member => exact absurd member List.not_mem_nil
      | inside member => exact absurd member List.not_mem_nil
  · exact ⟨_, rfl, rfl⟩
  · have all : lopsided.emitted = [.branch (some ⟨numbered 20⟩) (.literal "true")
        [.branch (some ⟨numbered 40⟩) (.literal "true") [.leave (some ⟨numbered 60⟩) none] []] [],
        .leave (some ⟨numbered 60⟩) none] := by cbv
    exact ⟨_, _, _, all, .inside (.head _) (.head _) (.here (.head _))⟩

end NodeScript
