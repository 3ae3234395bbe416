import NodeScript.Proofs.Translation.Traversal

/-!
Parts of the translation that file nothing. While the method of a function is made, the methods and
the subscriptions that are there stay as they are, and errors are added at most; extensions are asked
to do no more.
-/

namespace NodeScript

/-- The methods and the subscriptions are the same, and the errors are the first of those there are
afterwards. -/
structure TranslationContext.Kept (c c' : TranslationContext) : Prop where
  methods : c'.methods = c.methods
  registrations : c'.registrations = c.registrations
  errors : c.errors <+: c'.errors

namespace TranslationContext.Kept

variable {c c' c'' : TranslationContext}

theorem refl (c : TranslationContext) : c.Kept c := ⟨rfl, rfl, List.prefix_rfl⟩

theorem trans (first : c.Kept c') (next : c'.Kept c'') : c.Kept c'' where
  methods := next.methods.trans first.methods
  registrations := next.registrations.trans first.registrations
  errors := first.errors.trans next.errors

theorem report (c : TranslationContext) (e : CompilerError) : c.Kept (c.report e) :=
  ⟨rfl, rfl, List.prefix_append _ _⟩

theorem addField (c : TranslationContext) (f : FieldDecl) : c.Kept (c.addField f).2 := by
  unfold TranslationContext.addField
  split <;> exact ⟨rfl, rfl, List.prefix_rfl⟩

end TranslationContext.Kept

/-- A part of the translation that files no method and no subscription. -/
def FilesNothing {α : Type} (m : Translate α) : Prop :=
  ∀ s : TranslatorState, s.context.Kept (m.run s).2.context

theorem filesNothing_pervades (env : TranslationEnv) : Pervades env fun _ m => FilesNothing m :=
  .of_context .refl .trans .report

/-- An extension that, where reading inputs files nothing, files nothing itself. -/
structure NodeTranslator.FilesNothingItself (t : NodeTranslator) : Prop where
  statements : ∀ scope, (∀ input, FilesNothing (scope.input input).run) →
    FilesNothing (t.statements scope).run
  expression : ∀ scope output, (∀ input, FilesNothing (scope.input input).run) →
    FilesNothing (t.expression scope output).run

/-- The extensions whose nodes stand in the graph file nothing. -/
def TranslationEnv.ExtensionsFileNothing (env : TranslationEnv) : Prop :=
  ∀ id n typeId config t, env.graph.node? id = some n → n.kind = .custom typeId config →
    env.translators.get? typeId = some t → t.FilesNothingItself

/-- A graph without nodes of extensions asks nothing of them. -/
theorem Graph.BuiltIn.extensionsFileNothing {env : TranslationEnv} (builtIn : env.graph.BuiltIn) :
    env.ExtensionsFileNothing := by
  intro id n typeId config t found kind
  have own := builtIn found
  simp [kind, NodeKind.isBuiltIn] at own

theorem functionMethod_filesNothing {env : TranslationEnv} (fileNothing : env.ExtensionsFileNothing)
    (function : NodeId) (decl : FunctionDecl) : FilesNothing (functionMethod env function decl) := by
  have extensions : env.Keeps fun _ m => FilesNothing m :=
    fun id n typeId config t found kind present =>
      have kept := fileNothing id n typeId config t found kind present
      ⟨kept.statements, kept.expression⟩
  exact (filesNothing_pervades env).functionMethod extensions function decl

/-- Without errors the method that a function became is the end of the one that is filed under its
name. -/
theorem translateFunction_filed {env : TranslationEnv} (fileNothing : env.ExtensionsFileNothing)
    (function : NodeId) (decl : FunctionDecl) (s : TranslatorState)
    (clean : ((translateFunction env function decl).run s).2.context.errors = s.context.errors) :
    ∃ whole, ((translateFunction env function decl).run s).2.context.methods.get?
        (sanitize decl.methodName) = some whole ∧
      ((functionMethod env function decl).run s).1.body <:+ whole.body := by
  have kept := functionMethod_filesNothing fileNothing function decl s
  have named : ((functionMethod env function decl).run s).1.name = sanitize decl.methodName := rfl
  rw [translateFunction_run] at clean ⊢
  generalize (functionMethod env function decl).run s = r at kept named clean ⊢
  obtain ⟨method, s'⟩ := r
  dsimp only at kept named clean ⊢
  rcases fileMethod_cases function decl method s' with
    ⟨merged, found, -, -, methods⟩ | ⟨e, -, added⟩
  · obtain ⟨-, -, whole, filed, -, ending⟩ := TranslationContext.mergeMethod_ok found
    exact ⟨whole, by rw [methods, ← named, filed], ending⟩
  · have longer := kept.errors.length_le
    have length := congrArg List.length (added.symm.trans clean)
    rw [List.length_append, List.length_singleton] at length
    omega

theorem translateFields_filesNothing (env : TranslationEnv) :
    FilesNothing (translateFields env) := by
  refine (filesNothing_pervades env).forM (fun v => ?_) _
  unfold translateField
  split
  · exact (filesNothing_pervades env).report _
  · exact fun s => .addField s.context _

end NodeScript
