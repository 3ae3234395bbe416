import NodeScript.Proofs.Typing.Solving
import NodeScript.Proofs.Typing.Storable

/-!
Runs of solving in which every call is accepted. That is so exactly if each call would be accepted
by itself and no two bind a variable to different types, which has nothing to do with the order of
the calls. Neither has what is bound in the end, which is all that the calls bind by themselves.
-/

namespace NodeScript

variable {oracle : TypeOracle} {m : MethodSignature} {s : Solution} {k : String} {t : TypeExpr}
  {call call' : TypeExpr × Nat} {calls calls' : List (TypeExpr × Nat)}

/-- No variable has different types in two tables. -/
def Bindings.Agree (b b' : Bindings) : Prop :=
  ∀ ⦃k t t'⦄, b.get? k = some t → b'.get? k = some t' → t = t'

theorem Bindings.Agree.symm {b b' : Bindings} (agree : b.Agree b') : b'.Agree b :=
  fun _ _ _ held held' => (agree held' held).symm

theorem firstConflict_eq_none_iff {bindings solved : Bindings} :
    firstConflict bindings solved.entries = none ↔ bindings.Agree solved := by
  constructor
  · intro none k t t' held found
    exact firstConflict_eq_none none (OrderedMap.get?_eq_some_iff.mp found) held
  · intro agree
    refine List.findSome?_eq_none_iff.mpr fun ⟨k, t⟩ member => ?_
    dsimp only
    cases held : bindings.get? k with
    | none => rfl
    | some old => simp [agree held (OrderedMap.get?_eq_some_iff.mpr member)]

/-- What comes of a call by itself. -/
def MethodSignature.alone (m : MethodSignature) (oracle : TypeOracle) (call : TypeExpr × Nat) :
    Solution × Except SolveError Unit :=
  m.unsolved.step oracle m call.1 call.2

/-- Every call of a run is accepted. -/
def Solution.AcceptsAll (s : Solution) (oracle : TypeOracle) (m : MethodSignature) :
    List (TypeExpr × Nat) → Prop
  | [] => True
  | call :: rest => (s.step oracle m call.1 call.2).2 = .ok () ∧
    (s.step oracle m call.1 call.2).1.AcceptsAll oracle m rest

theorem get?_absorb_unsolved (solved : Bindings) :
    (m.unsolved.absorb m solved).bindings.get? k = solved.get? k := by
  rw [Solution.absorb, get?_addNewBindings]
  exact Option.none_or

/-- A call is accepted exactly if it would be by itself and binds nothing otherwise than before. -/
theorem Solution.step_ok_iff : (s.step oracle m call.1 call.2).2 = .ok () ↔
    (m.alone oracle call).2 = .ok () ∧ s.bindings.Agree (m.alone oracle call).1.bindings := by
  rw [MethodSignature.alone]
  rcases Solution.step_cases oracle m call.1 call.2 with
    ⟨_, fails⟩ | ⟨_, idles⟩ | ⟨_, solved, _, _, takes⟩
  · simp [fails]
  · have blank : s.bindings.Agree m.unsolved.bindings := fun _ _ _ _ found => nomatch found
    simp [idles, blank]
  · have agree : s.bindings.Agree (m.unsolved.absorb m solved).bindings ↔
        firstConflict s.bindings solved.entries = none := by
      simp only [firstConflict_eq_none_iff, Bindings.Agree, get?_absorb_unsolved]
    have free : firstConflict m.unsolved.bindings solved.entries = none := firstConflict_empty _
    rw [takes, takes, agree, free]
    cases firstConflict s.bindings solved.entries with
    | none => simp
    | some e => simp

/-- A call that is accepted binds what it binds by itself. -/
theorem Solution.get?_step_iff (accepted : (s.step oracle m call.1 call.2).2 = .ok ()) :
    (s.step oracle m call.1 call.2).1.bindings.get? k = some t ↔
      s.bindings.get? k = some t ∨ (m.alone oracle call).1.bindings.get? k = some t := by
  have agree := (Solution.step_ok_iff.mp accepted).2
  have adds : (s.step oracle m call.1 call.2).1.bindings.get? k =
      (s.bindings.get? k).or ((m.alone oracle call).1.bindings.get? k) := by
    rw [MethodSignature.alone]
    rcases Solution.step_cases oracle m call.1 call.2 with
      ⟨_, fails⟩ | ⟨_, idles⟩ | ⟨_, solved, _, _, takes⟩
    · rw [fails] at accepted
      exact nomatch accepted
    · rw [idles, idles]
      exact Option.or_none.symm
    · rw [takes, takes, get?_absorb_unsolved, Solution.absorb, get?_addNewBindings]
      rfl
  rw [adds]
  cases held : s.bindings.get? k with
  | none => simp
  | some old =>
    rw [Option.some_or]
    refine ⟨.inl, ?_⟩
    rintro (same | found)
    · exact same
    · rw [agree held found]

/-- A run is accepted exactly if each of its calls is by itself and binds nothing otherwise than
before the run or than another call of it. -/
theorem Solution.acceptsAll_iff : s.AcceptsAll oracle m calls ↔
    (∀ call ∈ calls, (m.alone oracle call).2 = .ok () ∧
      s.bindings.Agree (m.alone oracle call).1.bindings) ∧
    calls.Pairwise fun call call' =>
      Bindings.Agree (m.alone oracle call).1.bindings (m.alone oracle call').1.bindings := by
  induction calls generalizing s with
  | nil => simp [AcceptsAll]
  | cons call rest ih =>
    rw [AcceptsAll, ih, List.forall_mem_cons, List.pairwise_cons, ← Solution.step_ok_iff]
    have splits : (s.step oracle m call.1 call.2).2 = .ok () → ∀ call',
        ((s.step oracle m call.1 call.2).1.bindings.Agree (m.alone oracle call').1.bindings ↔
          s.bindings.Agree (m.alone oracle call').1.bindings ∧
            Bindings.Agree (m.alone oracle call).1.bindings (m.alone oracle call').1.bindings) := by
      intro accepted call'
      constructor
      · intro agree
        exact ⟨fun _ _ _ held => agree ((get?_step_iff accepted).mpr (.inl held)),
          fun _ _ _ held => agree ((get?_step_iff accepted).mpr (.inr held))⟩
      · rintro ⟨before, other⟩ k t t' held found
        rcases (get?_step_iff accepted).mp held with old | new
        · exact before old found
        · exact other new found
    constructor
    · rintro ⟨accepted, alone, apart⟩
      refine ⟨⟨accepted, fun c inside => ?_⟩, fun c inside => ?_, apart⟩
      · exact ⟨(alone c inside).1, ((splits accepted c).mp (alone c inside).2).1⟩
      · exact ((splits accepted c).mp (alone c inside).2).2
    · rintro ⟨⟨accepted, alone⟩, first, apart⟩
      refine ⟨accepted, fun c inside => ⟨(alone c inside).1, ?_⟩, apart⟩
      exact (splits accepted c).mpr ⟨(alone c inside).2, first c inside⟩

/-- A run that is accepted binds what its calls bind by themselves. -/
theorem Solution.AcceptsAll.get?_iff (accepts : s.AcceptsAll oracle m calls) :
    (calls.foldl (fun s call => (s.step oracle m call.1 call.2).1) s).bindings.get? k = some t ↔
      s.bindings.get? k = some t ∨
        ∃ call ∈ calls, (m.alone oracle call).1.bindings.get? k = some t := by
  induction calls generalizing s with
  | nil => simp
  | cons call rest ih =>
    rw [List.foldl_cons, ih accepts.2, get?_step_iff accepts.1, List.exists_mem_cons_iff, or_assoc]

/-- If a run from nothing solved is accepted, so is the run of the same calls in any other order,
and in the end the same variables are bound to the same types, and the handles are the same. -/
theorem MethodSignature.solveAll_any_order (oracle : TypeOracle) (m : MethodSignature)
    (perm : calls.Perm calls') (accepts : m.unsolved.AcceptsAll oracle m calls) :
    m.unsolved.AcceptsAll oracle m calls' ∧
      (∀ name, (m.solveAll oracle calls').bindings.get? name =
        (m.solveAll oracle calls).bindings.get? name) ∧
      (m.solveAll oracle calls').handles = (m.solveAll oracle calls).handles := by
  have accepts' : m.unsolved.AcceptsAll oracle m calls' := by
    rw [Solution.acceptsAll_iff] at accepts ⊢
    refine ⟨fun call inside => accepts.1 call (perm.mem_iff.mpr inside), ?_⟩
    exact (perm.pairwise_iff Bindings.Agree.symm).mp accepts.2
  have same : ∀ name, (m.solveAll oracle calls').bindings.get? name =
      (m.solveAll oracle calls).bindings.get? name := by
    intro name
    refine Option.ext fun t => ?_
    rw [solveAll, solveAll, accepts.get?_iff, accepts'.get?_iff]
    simp only [perm.mem_iff]
  refine ⟨accepts', same, ?_⟩
  have shows := (Solution.run_kept oracle m calls m.unsolved_shows).1
  have shows' := (Solution.run_kept oracle m calls' m.unsolved_shows).1
  rw [solveAll, solveAll, shows, shows']
  refine List.map_congr_left fun slot _ => ?_
  exact congrArg TypeHandle.of (TypeExpr.substitute_congr same slot)

/-- A method that pairs keys with values and is given the first key besides. -/
def zipMethod : MethodSignature where
  declaringType := .plain "Pairs"
  name := "Zip"
  isStatic := true
  genericParameters := ["K", "V"]
  parameters := [⟨"keys", .named "IEnumerable" [.var "K"]⟩,
    ⟨"values", .named "IEnumerable" [.var "V"]⟩, ⟨"first", .var "K"⟩]
  returnType := .named "Map" [.var "K", .var "V"]

/-- A list, an array and a number flow in, each of which binds a variable, the number one that the
list binds too. -/
theorem MethodSignature.solveAll_any_order_zip :
    let oracle := TypeDatabase.standard.toOracle
    let keys := (TypeExpr.named "List" [.plain "int"], 0)
    let values := (TypeExpr.array (.plain "string"), 1)
    let first := (TypeExpr.plain "int", 2)
    [keys, values, first].Perm [first, values, keys] ∧
      zipMethod.unsolved.AcceptsAll oracle zipMethod [keys, values, first] ∧
      zipMethod.unsolved.AcceptsAll oracle zipMethod [first, values, keys] ∧
      (∀ name, (zipMethod.solveAll oracle [first, values, keys]).bindings.get? name =
        (zipMethod.solveAll oracle [keys, values, first]).bindings.get? name) ∧
      (zipMethod.solveAll oracle [first, values, keys]).handles =
        (zipMethod.solveAll oracle [keys, values, first]).handles := by
  intro oracle keys values first
  have perm : [keys, values, first].Perm [first, values, keys] :=
    List.reverse_perm [first, values, keys]
  have accepts : zipMethod.unsolved.AcceptsAll oracle zipMethod [keys, values, first] :=
    ⟨by decide +kernel, by decide +kernel, by decide +kernel, trivial⟩
  exact ⟨perm, accepts, solveAll_any_order oracle zipMethod perm accepts⟩

end NodeScript
