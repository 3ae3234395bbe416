import NodeScript.Proofs.Translation.Evaluation
import NodeScript.Translation.Statement

/-!
Parts of the translation that report nothing. Errors are only ever added, so if a translation reports
nothing then none of its parts does, and each part can be described for that case alone.
-/

namespace NodeScript

section Rules

variable {α β : Type} {m : Translate α} {P : α → Prop} {Q : β → Prop}

/-- Without tracing, a part of the translation adds to the errors at most, and its result is as told
unless it adds any. -/
def HoldsUnlessErrors (m : Translate α) (P : α → Prop) : Prop :=
  ∀ s, s.trace = none →
    (m.run s).2.trace = none ∧ s.context.errors <+: (m.run s).2.context.errors ∧
      ((m.run s).2.context.errors = s.context.errors → P (m.run s).1)

theorem HoldsUnlessErrors.pure {a : α} (holds : P a) : HoldsUnlessErrors (pure a) P :=
  fun _ untraced => ⟨untraced, List.prefix_rfl, fun _ => holds⟩

theorem HoldsUnlessErrors.bind {f : α → Translate β} (first : HoldsUnlessErrors m P)
    (next : ∀ a, HoldsUnlessErrors (f a) fun b => P a → Q b) : HoldsUnlessErrors (m >>= f) Q := by
  intro s untraced
  obtain ⟨untraced', grows, holds⟩ := first s untraced
  obtain ⟨untraced'', grows', holds'⟩ := next _ _ untraced'
  refine ⟨untraced'', grows.trans grows', fun same => ?_⟩
  -- what stands between two equal lists of errors is equal to both
  have same : ((f (m.run s).1).run (m.run s).2).2.context.errors = s.context.errors := same
  have middle : (m.run s).2.context.errors = s.context.errors :=
    (grows.eq_of_length_le (same ▸ grows'.length_le)).symm
  exact holds' (same.trans middle.symm) (holds middle)

theorem HoldsUnlessErrors.mono {R : α → Prop} (first : HoldsUnlessErrors m P)
    (weaker : ∀ a, P a → R a) : HoldsUnlessErrors m R :=
  fun s untraced =>
    let ⟨untraced', grows, holds⟩ := first s untraced
    ⟨untraced', grows, fun same => weaker _ (holds same)⟩

/-- A change of neither the errors nor the record of traced runs. -/
theorem HoldsUnlessErrors.modify {f : TranslatorState → TranslatorState}
    (trace : ∀ s, (f s).trace = s.trace)
    (errors : ∀ s, (f s).context.errors = s.context.errors) :
    HoldsUnlessErrors (modify f : Translate Unit) fun _ => True := by
  intro s untraced
  refine ⟨(trace s).trans untraced, ?_, fun _ => trivial⟩
  exact (errors s).symm ▸ List.prefix_rfl

theorem HoldsUnlessErrors.report (e : CompilerError) :
    HoldsUnlessErrors (reportError e) fun _ => False := by
  intro s untraced
  refine ⟨untraced, List.prefix_append _ _, fun same => ?_⟩
  have same : s.context.errors ++ [e] = s.context.errors := same
  simp at same

/-- An evaluation that changes nothing. -/
def KeepsState (m : Evaluate α) : Prop := ∀ s, (m.run.run s).2 = s

theorem Evaluates.keepsState {m : Evaluate α} {ok : TranslatorState → α → Prop}
    (told : ∀ s, Evaluates m s (ok s)) : KeepsState m :=
  fun s => (told s).1

theorem KeepsState.holdsUnlessErrors {m : Evaluate α} (keepsState : KeepsState m) :
    HoldsUnlessErrors m.run fun _ => True := by
  intro s untraced
  rw [keepsState s]
  exact ⟨untraced, List.prefix_rfl, fun _ => trivial⟩

end Rules

section Expressions

variable {env : TranslationEnv} {n : Node} {denv : DefinitionEnv}

theorem TranslationEnv.inputExpr_keepsState (standard : env.graph.Standard denv) (node : NodeId)
    (input : String) : KeepsState (env.inputExpr node input) :=
  Evaluates.keepsState fun s => inputExpr_evaluates standard.builtIn s node input

theorem TranslationEnv.callExpr_keepsState (standard : env.graph.Standard denv) {decl : CallDecl}
    (kind : n.kind = .call decl) : KeepsState (env.callExpr n decl (env.inputExpr n.id)) :=
  Evaluates.keepsState fun s =>
    callExpr_evaluates (inputExpr_evaluates standard.builtIn s n.id) kind

theorem TranslationEnv.inputOrDefault_holdsUnlessErrors (standard : env.graph.Standard denv)
    (node : NodeId) (input type : String) :
    HoldsUnlessErrors (env.inputOrDefault node input type) fun _ => True := by
  refine (inputExpr_keepsState standard node input).holdsUnlessErrors.bind fun result => ?_
  cases result with
  | ok e => exact .pure fun _ => trivial
  | error e =>
    exact (HoldsUnlessErrors.report e).bind fun _ => .pure fun absurdity => absurdity.elim

end Expressions

end NodeScript
