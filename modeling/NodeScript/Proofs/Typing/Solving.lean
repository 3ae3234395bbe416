import NodeScript.Proofs.Typing.Fitting

/-!
Runs of solving the variables of a method. Whatever types flow into its inputs, in whatever order
and with whatever errors in between, what a variable was first bound to is kept, the handles show
the slots under what is bound, and a type that was accepted fits its input.
-/

namespace NodeScript

variable {oracle : TypeOracle} {m : MethodSignature} {s : Solution} {bindings : Bindings}
variable {concrete : TypeExpr} {index : Nat}

/-! ### Adding bindings -/

/-- A variable that is bound keeps its type; another one has the first that is added for it. -/
theorem get?_addNewBindings (pairs : List (String × TypeExpr)) (k : String) :
    (addNewBindings bindings pairs).get? k =
      (bindings.get? k).or ((pairs.find? (·.1 = k)).map Prod.snd) := by
  induction pairs generalizing bindings with
  | nil => simp [addNewBindings]
  | cons pair rest ih =>
    obtain ⟨name, t⟩ := pair
    have step : addNewBindings bindings ((name, t) :: rest) =
        addNewBindings (if bindings.contains name then bindings else bindings.insert name t) rest :=
      rfl
    rw [step, ih, List.find?_cons]
    by_cases same : name = k
    · subst same
      cases held : bindings.get? name with
      | none =>
        have absent := OrderedMap.contains_eq_false_iff.mpr (OrderedMap.get?_eq_none_iff.mp held)
        simp [absent]
      | some old =>
        have present := OrderedMap.contains_eq_true_iff.mpr (OrderedMap.mem_keys_of_get? held)
        simp [present, held]
    · have other : k ≠ name := fun equal => same equal.symm
      split
      · simp [same]
      · simp [same, OrderedMap.get?_insert_of_ne other]

theorem within_addNewBindings (pairs : List (String × TypeExpr)) :
    bindings.Within (addNewBindings bindings pairs) := by
  intro k t held
  rw [get?_addNewBindings, held, Option.some_or]

theorem firstConflict_eq_none {pairs : List (String × TypeExpr)} {k : String} {t old : TypeExpr}
    (agree : firstConflict bindings pairs = none) (added : (k, t) ∈ pairs)
    (held : bindings.get? k = some old) : old = t := by
  have none := List.findSome?_eq_none_iff.mp agree (k, t) added
  simpa [held] using none

/-- If nothing that was solved contradicts a binding, then all of it is taken over. -/
theorem solved_within_addNewBindings {solved : Bindings}
    (agree : firstConflict bindings solved.entries = none) :
    solved.Within (addNewBindings bindings solved.entries) := by
  intro k t found
  rw [get?_addNewBindings]
  cases held : bindings.get? k with
  | none => exact found
  | some old =>
    rw [firstConflict_eq_none agree (OrderedMap.get?_eq_some_iff.mp found) held, Option.some_or]

theorem firstConflict_empty (pairs : List (String × TypeExpr)) : firstConflict ∅ pairs = none := by
  refine List.findSome?_eq_none_iff.mpr fun pair _ => ?_
  rfl

theorem conflict_of_firstConflict {pairs : List (String × TypeExpr)} {e : SolveError}
    (found : firstConflict bindings pairs = some e) :
    ∃ name existing conflicting, e = .conflict name existing conflicting := by
  obtain ⟨⟨name, t⟩, -, differs⟩ := List.exists_of_findSome?_eq_some found
  cases held : bindings.get? name with
  | none => simp [held] at differs
  | some old =>
    simp only [held] at differs
    split at differs
    · exact nomatch differs
    · exact ⟨name, old, t, (Option.some.inj differs).symm⟩

/-! ### One call -/

/-- Every slot has a handle, which shows the slot with the variables replaced that are bound. -/
def Solution.Shows (s : Solution) (m : MethodSignature) : Prop :=
  s.handles = m.slotTypes.map fun slot => .of (slot.substitute s.bindings)

theorem MethodSignature.unsolved_shows (m : MethodSignature) : m.unsolved.Shows m := by
  simp [Solution.Shows, MethodSignature.unsolved, TypeExpr.substitute_empty]

theorem rewriteHandles_shows (before after : Bindings) (slots : List TypeExpr) :
    rewriteHandles after slots (slots.map fun slot => .of (slot.substitute before)) =
      slots.map fun slot => .of (slot.substitute after) := by
  induction slots with
  | nil => rfl
  | cons slot rest ih =>
    rw [List.map_cons, rewriteHandles, ih, List.map_cons]
    split
    · rfl
    · rename_i closed
      have closed := Bool.not_eq_true _ ▸ closed
      rw [TypeExpr.substitute_of_closed slot closed, TypeExpr.substitute_of_closed slot closed]

/-- What a solution becomes when more has been solved. -/
def Solution.absorb (s : Solution) (m : MethodSignature) (solved : Bindings) : Solution :=
  let bindings := addNewBindings s.bindings solved.entries
  ⟨bindings, rewriteHandles bindings m.slotTypes s.handles⟩

theorem Solution.Shows.absorb (shows : s.Shows m) (solved : Bindings) :
    (s.absorb m solved).Shows m := by
  unfold Solution.Shows at shows ⊢
  rw [Solution.absorb, shows, rewriteHandles_shows]

/-- What a call can do. That it fails by its own input, that its input has no variables, or what it
solves does not depend on what was solved before; whether it contradicts that is told at the end. -/
theorem Solution.step_cases (oracle : TypeOracle) (m : MethodSignature) (concrete : TypeExpr)
    (index : Nat) :
    (∃ e, ∀ s : Solution, s.step oracle m concrete index = (s, .error e)) ∨
    ((∀ declared, m.inputTypes[index]? = some declared → declared.isOpen = false) ∧
      ∀ s : Solution, s.step oracle m concrete index = (s, .ok ())) ∨
    ∃ declared solved,
      m.inputTypes[index]? = some declared ∧ oracle.unify ∅ declared concrete = .ok solved ∧
      ∀ s : Solution, s.step oracle m concrete index =
        (s.absorb m solved,
          match firstConflict s.bindings solved.entries with
          | some e => .error e
          | none => .ok ()) := by
  cases input : m.inputTypes[index]? with
  | none => exact .inl ⟨_, fun s => by rw [Solution.step, input]⟩
  | some declared =>
    cases isOpen : declared.isOpen with
    | false =>
      refine .inr (.inl ⟨fun d same => Option.some.inj same ▸ isOpen, fun s => ?_⟩)
      simp [Solution.step, input, isOpen]
    | true =>
      cases unified : oracle.unify ∅ declared concrete with
      | error e => exact .inl ⟨e, fun s => by simp [Solution.step, input, isOpen, unified]⟩
      | ok solved =>
        refine .inr (.inr ⟨declared, solved, rfl, unified, fun s => ?_⟩)
        cases conflict : firstConflict s.bindings solved.entries with
        | none => simp [Solution.step, Solution.absorb, input, isOpen, unified, conflict]
        | some e => simp [Solution.step, Solution.absorb, input, isOpen, unified, conflict]

theorem Solution.Shows.step (shows : s.Shows m) : (s.step oracle m concrete index).1.Shows m := by
  rcases Solution.step_cases oracle m concrete index with
    ⟨_, fails⟩ | ⟨_, idles⟩ | ⟨_, solved, _, _, takes⟩
  · rw [fails]; exact shows
  · rw [idles]; exact shows
  · rw [takes]; exact shows.absorb solved

theorem Solution.within_step : s.bindings.Within (s.step oracle m concrete index).1.bindings := by
  rcases Solution.step_cases oracle m concrete index with
    ⟨_, fails⟩ | ⟨_, idles⟩ | ⟨_, solved, _, _, takes⟩
  · rw [fails]; exact OrderedMap.Within.refl
  · rw [idles]; exact OrderedMap.Within.refl
  · rw [takes]; exact within_addNewBindings _

/-- A call that would fail before anything is bound fails in the same way at any time, and it
changes nothing. -/
theorem Solution.step_of_failsAlone {e : SolveError}
    (alone : (m.unsolved.step oracle m concrete index).2 = .error e) :
    s.step oracle m concrete index = (s, .error e) := by
  rcases Solution.step_cases oracle m concrete index with
    ⟨_, fails⟩ | ⟨_, idles⟩ | ⟨_, solved, _, _, takes⟩
  · rw [fails] at alone ⊢
    rw [Except.error.inj alone]
  · rw [idles] at alone
    exact nomatch alone
  · rw [takes] at alone
    have free : firstConflict m.unsolved.bindings solved.entries = none := firstConflict_empty _
    rw [free] at alone
    exact nomatch alone

/-- A call that fails otherwise than by a conflict changes nothing. -/
theorem Solution.step_of_not_conflict {e : SolveError}
    (failed : (s.step oracle m concrete index).2 = .error e)
    (other : ∀ name existing conflicting, e ≠ .conflict name existing conflicting) :
    (s.step oracle m concrete index).1 = s := by
  rcases Solution.step_cases oracle m concrete index with
    ⟨_, fails⟩ | ⟨_, idles⟩ | ⟨_, solved, _, _, takes⟩
  · rw [fails]
  · rw [idles]
  · rw [takes] at failed
    cases conflict : firstConflict s.bindings solved.entries with
    | none => rw [conflict] at failed; exact nomatch failed
    | some e' =>
      rw [conflict] at failed
      obtain ⟨name, existing, conflicting, rfl⟩ := conflict_of_firstConflict conflict
      exact absurd (Except.error.inj failed).symm (other name existing conflicting)

theorem Solution.fits_of_step {declared : TypeExpr}
    (accepted : (s.step oracle m concrete index).2 = .ok ())
    (input : m.inputTypes[index]? = some declared) (isOpen : declared.isOpen = true) :
    declared.Fits oracle (s.step oracle m concrete index).1.bindings concrete := by
  rcases Solution.step_cases oracle m concrete index with
    ⟨_, fails⟩ | ⟨closed, _⟩ | ⟨declared', solved, input', unified, takes⟩
  · rw [fails] at accepted
    exact nomatch accepted
  · exact absurd isOpen (Bool.eq_false_iff.mp (closed declared input))
  · obtain rfl := Option.some.inj (input.symm.trans input')
    rw [takes] at accepted ⊢
    cases conflict : firstConflict s.bindings solved.entries with
    | some e => rw [conflict] at accepted; exact nomatch accepted
    | none =>
      obtain ⟨-, fits⟩ := TypeOracle.unify_fits declared concrete unified
      exact fits _ (solved_within_addNewBindings conflict)

/-! ### Runs of calls -/

/-- What is solved after a run of calls, each with the type that flows in and the input it flows
into. A call that fails does not end the run. -/
def MethodSignature.solveAll (oracle : TypeOracle) (m : MethodSignature)
    (calls : List (TypeExpr × Nat)) : Solution :=
  calls.foldl (fun s call => (s.step oracle m call.1 call.2).1) m.unsolved

theorem MethodSignature.solveAll_append (oracle : TypeOracle) (m : MethodSignature)
    (calls more : List (TypeExpr × Nat)) :
    m.solveAll oracle (calls ++ more) =
      more.foldl (fun s call => (s.step oracle m call.1 call.2).1) (m.solveAll oracle calls) :=
  List.foldl_append ..

theorem Solution.run_kept (oracle : TypeOracle) (m : MethodSignature)
    (calls : List (TypeExpr × Nat)) (shows : s.Shows m) :
    let after := calls.foldl (fun s call => (s.step oracle m call.1 call.2).1) s
    after.Shows m ∧ s.bindings.Within after.bindings := by
  induction calls generalizing s with
  | nil => exact ⟨shows, OrderedMap.Within.refl⟩
  | cons call rest ih =>
    have next : (s.step oracle m call.1 call.2).1.Shows m := shows.step
    obtain ⟨showsAfter, kept⟩ := ih next
    exact ⟨showsAfter, Solution.within_step.trans kept⟩

/-- After any run of calls: the handles show the slots under what is bound; no further calls change
a binding; a call that fails by its own input, whether by its place, by its shape or by two types
for one variable, leaves everything as it is; and when a call accepts a type for an input with
variables, all of them are bound and the type fits. -/
theorem MethodSignature.solveAll_sound (oracle : TypeOracle) (m : MethodSignature)
    (calls : List (TypeExpr × Nat)) :
    (m.solveAll oracle calls).handles =
        m.slotTypes.map (fun slot =>
          TypeHandle.of (slot.substitute (m.solveAll oracle calls).bindings)) ∧
      (∀ (more : List (TypeExpr × Nat)) (name : String) (t : TypeExpr),
        (m.solveAll oracle calls).bindings.get? name = some t →
        (m.solveAll oracle (calls ++ more)).bindings.get? name = some t) ∧
      ∀ (concrete : TypeExpr) (index : Nat),
        let before := m.solveAll oracle calls
        let call := before.step oracle m concrete index
        (∀ e, (m.unsolved.step oracle m concrete index).2 = .error e → call = (before, .error e)) ∧
        (∀ e, call.2 = .error e →
          (∀ name existing conflicting, e ≠ .conflict name existing conflicting) →
          call.1 = before) ∧
        (call.2 = .ok () → ∀ declared, m.inputTypes[index]? = some declared →
          declared.isOpen = true →
          (∀ v ∈ declared.vars, v ∈ call.1.bindings.keys) ∧
            declared.Fits oracle call.1.bindings concrete) := by
  have shows := (Solution.run_kept oracle m calls m.unsolved_shows).1
  refine ⟨shows, fun more name t held => ?_, fun concrete index => ⟨?_, ?_, ?_⟩⟩
  · rw [MethodSignature.solveAll_append]
    exact (Solution.run_kept oracle m more shows).2 held
  · exact fun e alone => Solution.step_of_failsAlone alone
  · exact fun e failed other => Solution.step_of_not_conflict failed other
  · intro accepted declared input isOpen
    have fits := Solution.fits_of_step accepted input isOpen
    exact ⟨fun v occurs => fits.bound occurs, fits⟩

end NodeScript
