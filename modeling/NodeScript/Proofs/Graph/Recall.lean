import NodeScript.Proofs.Graph.SureReach

/-!
What a search that remembers may leave out. The same search without a memory, which works a stack out
anew whenever it comes to one, finds all that lies on every walk, whether or not execution can come
back to a stack. What is remembered of a stack has been worked out while others were pending, and was
cut at these; it holds for later as well where every loop is entered at one stack only.
-/

namespace NodeScript

namespace Graph

open Relation

/-! ### The search without a memory -/

/-- What all of several lists have in common, if there are any. -/
def meetAll (lists : List (List NodeId)) : Option (List NodeId) :=
  lists.foldr (fun reached others => some (meetWays reached others)) none

/-- The stacks that are sure to be reached from a stack, worked out anew for every stack that is come
to. A way that comes back to a stack that is still being worked on counts as leaving there. -/
def plainFrom (g : Graph) : (depth : Nat) → (pending : List NodeId) → NodeId → List NodeId
  | 0, pending, stack => if pending.contains stack then [] else [stack]
  | depth + 1, pending, stack =>
    if pending.contains stack then []
    else sureWith stack (meetAll ((g.successors stack).map fun way =>
      way.elim [] (g.plainFrom depth (stack :: pending))))

/-- The stacks that are sure to be reached from a stack, found without remembering any. -/
def plainReach (g : Graph) (stack : NodeId) : List NodeId :=
  g.plainFrom (g.nodes.size + 1) [] stack

/-- However execution goes on from a stack, it comes to `x` and to no stack of a cut on the way. -/
inductive Clear (g : Graph) (cut : NodeId → Prop) (x : NodeId) : NodeId → Prop
  | here : Clear g cut x x
  | later {s} : ¬ g.MayEnd s → (∀ t, g.StepsTo s t → ¬ cut t) →
      (∀ t, g.StepsTo s t → Clear g cut x t) → Clear g cut x s

/-- A way leads to what is inevitable, short of the stacks that are pending. -/
def LeadsClear (g : Graph) (pending : List NodeId) (x : NodeId) (way : Option NodeId) : Prop :=
  ∃ t, way = some t ∧ t ∉ pending ∧ g.Clear (· ∈ pending) x t

/-- A way that execution can go from `o` without coming to a stack twice, the last stack first. -/
inductive SimplePath (g : Graph) (o : NodeId) : List NodeId → Prop
  | start : SimplePath g o [o]
  | step {s t path} : SimplePath g o (s :: path) → g.StepsTo s t → t ∉ s :: path →
      SimplePath g o (t :: s :: path)

/-- Execution can come from `o` to a stack without coming to `d`. -/
def Bypasses (g : Graph) (d o s : NodeId) : Prop :=
  o ≠ d ∧ ReflTransGen (fun a b => g.StepsTo a b ∧ b ≠ d) o s

/-- Execution cannot come from `o` to a stack without having come to `d` before. -/
def Dominates (g : Graph) (o s d : NodeId) : Prop := d ≠ s ∧ ¬ g.Bypasses d o s

/-- Wherever execution from `o` can come back to a stack, it has come through that stack on every
way: no loop is entered at two stacks. -/
def LoopsEnteredOnce (g : Graph) (o : NodeId) : Prop :=
  ∀ path s t, g.SimplePath o (s :: path) → g.StepsTo s t → t ∈ s :: path → ¬ g.Bypasses t o s

variable {g : Graph} {cut cut' : NodeId → Prop} {pending path : List NodeId} {table after : ReachTable}
  {ways : List (Option NodeId)} {through : Option (List NodeId)} {d o s t u v x : NodeId}

theorem mem_sureWith_meetAll {lists : List (List NodeId)} :
    x ∈ sureWith s (meetAll lists) ↔ x = s ∨ (lists ≠ [] ∧ ∀ list ∈ lists, x ∈ list) := by
  have reports : ∀ lists : List (List NodeId),
      Reports (meetAll lists) x ↔ ∀ list ∈ lists, x ∈ list := by
    intro lists
    induction lists with
    | nil => simp [meetAll, Reports]
    | cons list rest ih =>
      rw [List.forall_mem_cons, ← ih]
      exact reports_meetWays
  rw [mem_sureWith, ← reports]
  cases lists with
  | nil => simp [meetAll]
  | cons list rest => simp [meetAll, Reports]

theorem plainFrom_busy (busy : s ∈ pending) (depth : Nat) : g.plainFrom depth pending s = [] := by
  cases depth <;> simp [plainFrom, busy]

/-! ### What is inevitable short of a cut -/

theorem leadsClear_some : g.LeadsClear pending x (some t) ↔
    t ∉ pending ∧ g.Clear (· ∈ pending) x t := by
  simp [LeadsClear]

theorem not_leadsClear_none : ¬ g.LeadsClear pending x none := by simp [LeadsClear]

theorem Clear.mono (clear : g.Clear cut x s) (fewer : ∀ t, cut' t → cut t) : g.Clear cut' x s := by
  induction clear with
  | here => exact .here
  | later goesOn apart _ ih => exact .later goesOn (fun t step held => apart t step (fewer t held)) ih

theorem clear_iff_inevitable (none : ∀ t, ¬ cut t) : g.Clear cut x s ↔ g.Inevitable x s := by
  constructor
  · intro clear
    induction clear with
    | here => exact .here
    | later goesOn _ _ ih => exact .later goesOn ih
  · intro sure
    induction sure with
    | here => exact .here
    | later goesOn _ ih => exact .later goesOn (fun t _ => none t) ih

theorem Clear.cases_ne (clear : g.Clear cut x s) (different : s ≠ x) :
    ¬ g.MayEnd s ∧ ∀ t, g.StepsTo s t → ¬ cut t ∧ g.Clear cut x t := by
  cases clear with
  | here => exact absurd rfl different
  | later goesOn apart next => exact ⟨goesOn, fun t step => ⟨apart t step, next t step⟩⟩

/-- A step from a stack other than `x`. -/
def StepsShort (g : Graph) (x s t : NodeId) : Prop := g.StepsTo s t ∧ s ≠ x

/-- Execution does not come back to any stack before it has come to what is inevitable. -/
theorem Clear.acyclic (clear : g.Clear cut x s) (reach : ReflTransGen (g.StepsShort x) s u) :
    ¬ TransGen (g.StepsShort x) u u := by
  induction clear generalizing u with
  | here =>
    intro cycle
    have stuck : u = x := by
      rcases ReflTransGen.cases_head reach with same | ⟨_, ⟨-, away⟩, -⟩
      · exact same.symm
      · exact absurd rfl away
    obtain ⟨_, ⟨-, away⟩, -⟩ := TransGen.head'_iff.mp cycle
    exact away stuck
  | @later s _ _ _ ih =>
    intro cycle
    rcases ReflTransGen.cases_head reach with rfl | ⟨t, ⟨step, -⟩, onward⟩
    · obtain ⟨t, ⟨step, -⟩, back⟩ := TransGen.head'_iff.mp cycle
      exact ih t step back cycle
    · exact ih t step onward cycle

/-- What is inevitable short of a cut stays so when a stack is added to it that execution does not
come back to before. -/
theorem Clear.add (clear : g.Clear cut x v) (away : ¬ ReflTransGen (g.StepsShort x) v s) :
    g.Clear (fun t => t = s ∨ cut t) x v := by
  induction clear with
  | here => exact .here
  | @later v goesOn apart _ ih =>
    by_cases arrived : v = x
    · exact arrived ▸ .here
    · refine .later goesOn ?_ fun t step => ih t step fun onward => away (onward.head ⟨step, arrived⟩)
      rintro t step (rfl | held)
      · exact away (.single ⟨step, arrived⟩)
      · exact apart t step held

/-- What is inevitable short of the pending stacks, one stack further on. -/
theorem clear_iff : g.Clear (· ∈ pending) x s ↔
    x = s ∨ (g.successors s ≠ [] ∧ ∀ way ∈ g.successors s, g.LeadsClear (s :: pending) x way) := by
  constructor
  · intro clear
    by_cases here : s = x
    · exact .inl here.symm
    · obtain ⟨goesOn, next⟩ := clear.cases_ne here
      refine .inr ⟨fun stuck => goesOn (.inl stuck), fun way member => ?_⟩
      cases way with
      | none => exact absurd (.inr member) goesOn
      | some t =>
        have step : g.StepsTo s t := member
        obtain ⟨apart, onward⟩ := next t step
        have away : ¬ ReflTransGen (g.StepsShort x) t s := fun back =>
          clear.acyclic .refl (TransGen.head' ⟨step, here⟩ back)
        have other : t ≠ s := by
          rintro rfl
          exact away .refl
        refine leadsClear_some.mpr ⟨by simp [other, apart], (onward.add away).mono ?_⟩
        exact fun u busy => List.mem_cons.mp busy
  · rintro (rfl | ⟨leads, always⟩)
    · exact .here
    · have next : ∀ t, g.StepsTo s t → t ∉ pending ∧ g.Clear (· ∈ pending) x t := by
        intro t step
        obtain ⟨apart, clear⟩ := leadsClear_some.mp (always (some t) step)
        exact ⟨fun busy => apart (.tail _ busy), clear.mono fun _ busy => .tail _ busy⟩
      refine .later ?_ (fun t step => (next t step).1) fun t step => (next t step).2
      rintro (stuck | lost)
      · exact leads stuck
      · exact not_leadsClear_none (always none lost)

/-- The search without a memory finds exactly what is inevitable short of the stacks that are
pending. The induction is on the depth, which is never used up. -/
theorem mem_plainFrom {depth : Nat} (within : g.WithinDepth depth pending) (idle : s ∉ pending) :
    x ∈ g.plainFrom depth pending s ↔ g.Clear (· ∈ pending) x s := by
  induction depth generalizing pending s with
  | zero => exact absurd rfl within.positive
  | succ depth ih =>
    have fresh : ¬ pending.contains s = true := fun busy => idle (List.contains_iff_mem.mp busy)
    rw [plainFrom, if_neg fresh, mem_sureWith_meetAll, clear_iff, List.forall_mem_map, ne_eq,
      List.map_eq_nil_iff]
    refine or_congr_right (and_congr_right fun _ => forall₂_congr fun way member => ?_)
    have onward := within.cons idle (mem_keys_of_mem_successors member)
    cases way with
    | none => simp [not_leadsClear_none]
    | some t =>
      rw [Option.elim_some, leadsClear_some]
      by_cases busy : t ∈ s :: pending
      · simp [plainFrom_busy busy, busy]
      · rw [ih onward busy, and_iff_right busy]

/-- The search without a memory finds exactly what lies on every walk. -/
theorem mem_plainReach : x ∈ g.plainReach o ↔ g.Inevitable x o := by
  rw [plainReach, mem_plainFrom (.of_lt (Nat.lt_succ_self _)) List.not_mem_nil]
  exact clear_iff_inevitable fun _ => List.not_mem_nil

/-! ### What is remembered -/

theorem SimplePath.idle (simple : g.SimplePath o (s :: path)) : s ∉ path := by
  cases simple with
  | start => exact List.not_mem_nil
  | step _ _ new => exact new

/-- Every stack of a simple path leads to its end. -/
theorem SimplePath.reaches (simple : g.SimplePath o (s :: path)) (member : t ∈ s :: path) :
    ReflTransGen g.StepsTo t s := by
  induction path generalizing s with
  | nil => exact List.mem_singleton.mp member ▸ .refl
  | cons u path ih =>
    cases simple with
    | step simple step _ =>
      rcases List.mem_cons.mp member with rfl | before
      · exact .refl
      · exact (ih simple before).tail step

theorem SimplePath.reachable (simple : g.SimplePath o (s :: path)) : ReflTransGen g.StepsTo o s := by
  induction path generalizing s with
  | nil =>
    cases simple
    exact .refl
  | cons u path ih =>
    cases simple with
    | step simple step _ => exact (ih simple).tail step

/-- A simple path without a stack is a way round it. -/
theorem SimplePath.bypasses (simple : g.SimplePath o (s :: path)) (absent : d ∉ s :: path) :
    g.Bypasses d o s := by
  induction path generalizing s with
  | nil =>
    cases simple
    exact ⟨fun same => absent (same ▸ .head _), .refl⟩
  | cons u path ih =>
    cases simple with
    | step simple step _ =>
      obtain ⟨apart, way⟩ := ih simple fun member => absent (.tail _ member)
      exact ⟨apart, way.tail ⟨step, fun same => absent (same ▸ .head _)⟩⟩

theorem FlowsForward.loopsEnteredOnce (forward : g.FlowsForward [o]) : g.LoopsEnteredOnce o := by
  intro path s t simple step member
  have back := simple.reaches member
  have cycle : TransGen g.StepsTo s s := TransGen.head' step back
  exact absurd cycle (forward o (.head _) s simple.reachable)

/-- A stack through which alone a part of the graph is entered comes before the others of the part. -/
theorem not_bypasses_of_entry {part : NodeId → Prop} (outside : ¬ part o) (inside : part s)
    (entry : ∀ a b, g.StepsTo a b → part b → ¬ part a → b = d) : ¬ g.Bypasses d o s := by
  rintro ⟨-, way⟩
  have never : ∀ t, ReflTransGen (fun a b => g.StepsTo a b ∧ b ≠ d) o t → ¬ part t := by
    intro t way
    induction way with
    | refl => exact outside
    | tail _ step ih => exact fun entered => step.2 (entry _ _ step.1 entered ih)
  exact never s way inside

/-- Loops are entered once if every step that does not rise leads back to a stack that execution has
come through. -/
theorem LoopsEnteredOnce.of_rank (rank : NodeId → Nat)
    (rising : ∀ s t, g.StepsTo s t → rank s < rank t ∨ ¬ g.Bypasses t o s) :
    g.LoopsEnteredOnce o := by
  have rises : ∀ path s, g.SimplePath o (s :: path) → ∀ y ∈ path, rank y < rank s := by
    intro path
    induction path with
    | nil => exact fun _ _ y none => absurd none List.not_mem_nil
    | cons u path ih =>
      intro s simple y member
      cases simple with
      | step simple step new =>
        have less : rank u < rank s :=
          (rising u s step).resolve_right fun passed => passed (simple.bypasses new)
        rcases List.mem_cons.mp member with rfl | before
        · exact less
        · exact Nat.lt_trans (ih u simple y before) less
  intro path s t simple step member
  refine (rising s t step).resolve_left fun less => ?_
  rcases List.mem_cons.mp member with rfl | before
  · exact Nat.lt_irrefl _ less
  · exact Nat.lt_asymm less (rises path s simple t before)

/-- Execution has gone on from `u`, to which a simple path led, as far as `v`. It has come neither to `x`
nor to a stack of the path on the way, and to no stack twice. -/
structure GoneOn (g : Graph) (o u x : NodeId) (path : List NodeId) (v : NodeId) (later : List NodeId) :
    Prop where
  simple : g.SimplePath o (v :: later)
  within : path ⊆ v :: later
  walk : ReflTransGen (fun a b => g.StepsTo a b ∧ b ∉ path) u v
  behind : ∀ y ∈ v :: later, y ∉ path → ReflTransGen (g.StepsShort x) y v

namespace GoneOn

variable {later : List NodeId}

theorem start (simple : g.SimplePath o (u :: path)) : g.GoneOn o u x path u path where
  simple := simple
  within := List.subset_cons_self _ _
  walk := .refl
  behind := List.forall_mem_cons.mpr ⟨fun _ => .refl, fun _ member away => absurd member away⟩

theorem step (gone : g.GoneOn o u x path v later) (clear : g.Clear cut x v) (short : v ≠ x)
    (step : g.StepsTo v t) (outside : t ∉ path) : g.GoneOn o u x path t (v :: later) := by
  have new : t ∉ v :: later := fun old =>
    clear.acyclic .refl (TransGen.head' ⟨step, short⟩ (gone.behind t old outside))
  refine ⟨gone.simple.step step new, List.subset_cons_of_subset _ gone.within,
    gone.walk.tail ⟨step, outside⟩, List.forall_mem_cons.mpr ⟨fun _ => .refl, ?_⟩⟩
  exact fun y member away => (gone.behind y member away).tail ⟨step, short⟩

/-- A step back to the path leads to a stack that every way to `u` comes through: to any other one it
would enter a loop for the second time. -/
theorem outside (gone : g.GoneOn o u x path v later) (entered : g.LoopsEnteredOnce o)
    (simple : g.SimplePath o (u :: path)) (step : g.StepsTo v t) (apart : ¬ g.Dominates o u t) :
    t ∉ path := by
  intro inside
  have other : t ≠ u := by
    rintro rfl
    exact simple.idle inside
  refine apart ⟨other, fun bypass => ?_⟩
  have round : ReflTransGen (fun a b => g.StepsTo a b ∧ b ≠ t) u v := by
    refine gone.walk.lift id ?_
    rintro a b ⟨go, out⟩
    refine ⟨go, ?_⟩
    rintro rfl
    exact out inside
  exact entered later v t gone.simple step (gone.within inside) ⟨bypass.1, bypass.2.trans round⟩

end GoneOn

theorem Clear.of_goneOn {later : List NodeId} (entered : g.LoopsEnteredOnce o)
    (simple : g.SimplePath o (u :: path)) (clear : g.Clear (g.Dominates o u) x v)
    (gone : g.GoneOn o u x path v later) : g.Clear (· ∈ path) x v := by
  induction clear generalizing later with
  | here => exact .here
  | @later v goesOn apart next ih =>
    by_cases arrived : v = x
    · exact arrived ▸ .here
    · have outside : ∀ t, g.StepsTo v t → t ∉ path := fun t step =>
        gone.outside entered simple step (apart t step)
      have clear : g.Clear (g.Dominates o u) x v := .later goesOn apart next
      exact .later goesOn outside fun t step => ih t step (gone.step clear arrived step (outside t step))

/-- At the end of a simple path the stacks before it cut what is inevitable no more than those do that
every way there comes through. -/
theorem Clear.of_dominates (entered : g.LoopsEnteredOnce o) (simple : g.SimplePath o (u :: path))
    (clear : g.Clear (g.Dominates o u) x u) : g.Clear (· ∈ path) x u :=
  clear.of_goneOn entered simple (.start simple)

theorem clear_iff_dominates (entered : g.LoopsEnteredOnce o) (simple : g.SimplePath o (u :: path)) :
    g.Clear (· ∈ path) x u ↔ g.Clear (g.Dominates o u) x u := by
  refine ⟨fun clear => clear.mono fun d dominates => ?_, .of_dominates entered simple⟩
  by_contra absent
  refine dominates.2 (simple.bypasses ?_)
  rintro (_ | ⟨_, member⟩)
  · exact dominates.1 rfl
  · exact absent member

/-- A table that holds for its stacks what is inevitable from them short of those that every way to
them comes through. -/
def Remembers (g : Graph) (o : NodeId) (table : ReachTable) : Prop :=
  ∀ s list, table.get? s = some list → ∀ x, x ∈ list ↔ g.Clear (g.Dominates o s) x s

theorem Remembers.insert (remembers : g.Remembers o table) {list : List NodeId}
    (new : ∀ x, x ∈ list ↔ g.Clear (g.Dominates o s) x s) : g.Remembers o (table.insert s list) := by
  intro t held found
  rw [OrderedMap.get?_insert] at found
  split at found
  · rename_i same
    obtain rfl := Option.some.inj found
    exact same ▸ new
  · exact remembers t held found

/-- Where no loop is entered at two stacks, a search with a memory reports through every one of its
ways what is inevitable short of the pending stacks, and nothing is remembered of these. -/
theorem SureRun.recalls (entered : g.LoopsEnteredOnce o)
    (run : g.SureRun pending table ways through after)
    (paths : ∀ t, some t ∈ ways → t ∉ pending → g.SimplePath o (t :: pending))
    (remembers : g.Remembers o table) (busy : ∀ p ∈ pending, table.get? p = none) :
    g.Remembers o after ∧ (∀ p ∈ pending, after.get? p = none) ∧
      ∀ x, Reports through x ↔ ∀ way ∈ ways, g.LeadsClear pending x way := by
  induction run with
  | done => exact ⟨remembers, busy, by simp [Reports]⟩
  | nowhere _ ih =>
    obtain ⟨rememberAfter, busyAfter, -⟩ := ih (fun t later => paths t (.tail _ later)) remembers busy
    refine ⟨rememberAfter, busyAfter, fun x => ?_⟩
    rw [reports_meetWays, List.forall_mem_cons]
    simp [not_leadsClear_none]
  | again _ inside _ ih =>
    obtain ⟨rememberAfter, busyAfter, -⟩ := ih (fun t later => paths t (.tail _ later)) remembers busy
    refine ⟨rememberAfter, busyAfter, fun x => ?_⟩
    rw [reports_meetWays, List.forall_mem_cons]
    simp [leadsClear_some, inside]
  | @known pending _ t list _ _ _ held _ ih =>
    obtain ⟨rememberAfter, busyAfter, rest⟩ := ih (fun t later => paths t (.tail _ later)) remembers busy
    refine ⟨rememberAfter, busyAfter, fun x => ?_⟩
    have idle : t ∉ pending := by
      intro inside
      rw [busy t inside] at held
      cases held
    rw [reports_meetWays, List.forall_mem_cons, rest, leadsClear_some, and_iff_right idle,
      clear_iff_dominates entered (paths t (.head _) idle), remembers t list held]
  | @fresh pending _ t through middle _ _ _ new idle inner _ ihInner ih =>
    have simple := paths t (.head _) idle
    obtain ⟨rememberMiddle, busyMiddle, innerReports⟩ := ihInner
      (fun t' step new' => simple.step step new') remembers
      (List.forall_mem_cons.mpr ⟨new, busy⟩)
    have sure : ∀ x, x ∈ sureWith t through ↔ g.Clear (· ∈ pending) x t := by
      intro x
      rw [mem_sureWith, clear_iff]
      refine or_congr_right ⟨?_, ?_⟩
      · rintro ⟨list, rfl, inside⟩
        refine ⟨inner.ways_ne_nil, (innerReports x).mp ?_⟩
        rintro _ ⟨⟩
        exact inside
      · rintro ⟨leads, always⟩
        obtain ⟨list, report⟩ := inner.exists_report leads
        exact ⟨list, report, (innerReports x).mpr always list report⟩
    have busyAgain : ∀ p ∈ pending, (middle.insert t (sureWith t through)).get? p = none := by
      intro p inside
      have other : p ≠ t := by
        rintro rfl
        exact idle inside
      exact (OrderedMap.get?_insert_of_ne other).trans (busyMiddle p (.tail _ inside))
    obtain ⟨rememberAfter, busyAfter, rest⟩ := ih (fun t later => paths t (.tail _ later))
      (rememberMiddle.insert fun x => (sure x).trans (clear_iff_dominates entered simple)) busyAgain
    refine ⟨rememberAfter, busyAfter, fun x => ?_⟩
    rw [reports_meetWays, List.forall_mem_cons, rest, leadsClear_some, and_iff_right idle, sure]

/-- Where no loop is entered at two stacks, the search finds all that lies on every walk. -/
theorem mem_sureReach_of_entered (entered : g.LoopsEnteredOnce o) :
    x ∈ g.sureReach o ↔ g.Inevitable x o := by
  obtain ⟨after, run⟩ := g.sureReach_run o
  have none : g.Remembers o ∅ := by
    intro s list held
    exact absurd held (by simp [OrderedMap.get?, OrderedMap.entries_empty])
  have first : ∀ t, some t ∈ [some o] → t ∉ [] → g.SimplePath o [t] := by
    intro t single _
    obtain rfl : t = o := by simpa using single
    exact .start
  have report := (run.recalls entered first none (by simp)).2.2 x
  have inside : Reports (some (g.sureReach o)) x ↔ x ∈ g.sureReach o := by simp [Reports]
  rw [← inside, report, List.forall_mem_singleton, leadsClear_some, and_iff_right List.not_mem_nil]
  exact clear_iff_inevitable fun _ => List.not_mem_nil

/-- Where the flow never comes back to a stack, the search finds all that lies on every walk. -/
theorem mem_sureReach_iff (forward : g.FlowsForward [o]) :
    x ∈ g.sureReach o ↔ g.Inevitable x o :=
  mem_sureReach_of_entered forward.loopsEnteredOnce

end Graph

end NodeScript
