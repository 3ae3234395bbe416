import Mathlib.Logic.Relation
import NodeScript.Build.Program

/-!
The program run on a tree of files. A part of it either comes to an end with a value or fails, and
leaves the tree changed or not; so what is known of the parts is known of the whole.
-/

namespace NodeScript

/-! ### Files -/

theorem FileTree.writeText_run (t : FileTree) (path text : String) :
    (MonadFiles.writeText path text : StateM FileTree _).run t =
      match t.writeText path text with
      | .ok written => (.ok (), written)
      | .error fault => (.error fault, t) := rfl

theorem FileTree.writeText_of_run {t t' : FileTree} {path text : String}
    (run : (MonadFiles.writeText path text : StateM FileTree _).run t = (.ok (), t')) :
    t.writeText path text = .ok t' := by
  rw [writeText_run] at run
  split at run
  · rename_i written
    cases run
    exact written
  · exact nomatch run

namespace FileAssets

/-- The graph of a path in a tree of files. -/
def graphIn (a : FileAssets) (t : FileTree) (path : String) : Except AssetError Graph :=
  if t.isFile (a.filePath path) then
    match t.readText (a.filePath path) with
    | .ok text => graphOfText text
    | .error fault => .error (.file fault)
  else .error (.notFound path)

/-- The paths of the graphs in a tree of files. -/
def pathsIn (a : FileAssets) (t : FileTree) : Except AssetError (List String) :=
  match t.filesBelow a.root with
  | .ok files => .ok (sortTexts (files.filter a.isGraphFile))
  | .error fault => .error (.walk a.root fault)

variable (a : FileAssets) (t : FileTree)

theorem load_run (path : String) :
    (a.load path : StateM FileTree _).run t = pure (a.graphIn t path, t) := by
  have asked : (MonadFiles.isFile (a.filePath path) : StateM FileTree _).run t =
      pure (t.isFile (a.filePath path), t) := rfl
  have read : (MonadFiles.readText (a.filePath path) : StateM FileTree _).run t =
      pure (t.readText (a.filePath path), t) := rfl
  rw [load, StateT.run_bind, asked, pure_bind, graphIn]
  cases t.isFile (a.filePath path) with
  | false => rfl
  | true =>
    rw [if_pos rfl, if_pos rfl, StateT.run_bind, read, pure_bind]
    cases t.readText (a.filePath path) <;> rfl

theorem list_run : (a.list : StateM FileTree _).run t = pure (a.pathsIn t, t) := by
  have listed : (MonadFiles.filesBelow a.root : StateM FileTree _).run t =
      pure (t.filesBelow a.root, t) := rfl
  rw [list, StateT.run_bind, listed, pure_bind, pathsIn]
  cases t.filesBelow a.root <;> rfl

end FileAssets

/-! ### Compilers -/

/-- A compiler turns a tree of files into others by steps of a kind only, whatever code it is given.
-/
def BackendIn.StepsBy (ask : BackendIn (StateM FileTree)) (R : FileTree → FileTree → Prop) : Prop :=
  ∀ name text t, Relation.ReflTransGen R t ((ask name text).run t).2

section Commands

variable [MonadCommands (StateM FileTree)]

/-- One run of the compiler of settings on some code turns a tree of files into another. -/
def ScriptSettings.CompilerRun (settings : ScriptSettings) (t t' : FileTree) : Prop :=
  ∃ compiler, settings.compiler = some compiler ∧ ∃ code,
    ((MonadCommands.run compiler.program compiler.arguments code : StateM FileTree _).run t).2 = t'

theorem BackendIn.command_run (program : String) (arguments : List String) (name text : String)
    (t : FileTree) : ((BackendIn.command program arguments name text : StateM FileTree _).run t).2 =
      ((MonadCommands.run program arguments text : StateM FileTree _).run t).2 := by
  rw [command, StateT.run_bind]
  rcases (MonadCommands.run program arguments text : StateM FileTree _).run t with ⟨_ | _, _⟩
  · rfl
  · rfl

theorem Program.backend_stepsBy (settings : ScriptSettings) :
    (backend settings).StepsBy settings.CompilerRun := by
  intro name text t
  cases given : settings.compiler with
  | none =>
    rw [backend, given]
    exact .refl
  | some compiler =>
    rw [backend, given, BackendIn.command_run]
    exact .single ⟨compiler, given, text, rfl⟩

end Commands

/-! ### Parts of the program -/

namespace Program

variable {α β : Type} {t t' : FileTree}

/-- What comes of a part of the program on a tree of files. -/
def on (t : FileTree) (p : Program (StateM FileTree) α) : Except ProgramFailure α × FileTree :=
  (p.run : StateM FileTree _).run t

theorem on_bind (p : Program (StateM FileTree) α) (next : α → Program (StateM FileTree) β)
    (t : FileTree) : (p >>= next).on t = match p.on t with
      | (.ok a, between) => (next a).on between
      | (.error e, between) => (.error e, between) := by
  simp only [on, ExceptT.run_bind, StateT.run_bind]
  rcases p.run.run t with ⟨_ | _, _⟩ <;> rfl

theorem on_lift (action : StateM FileTree α) (t : FileTree) :
    on t (liftM action) = (.ok (action.run t).1, (action.run t).2) := rfl

theorem on_bind_eq_ok {p : Program (StateM FileTree) α} {next : α → Program (StateM FileTree) β}
    {b : β} : (p >>= next).on t = (.ok b, t') ↔
      ∃ a between, p.on t = (.ok a, between) ∧ (next a).on between = (.ok b, t') := by
  rw [on_bind]
  constructor
  · intro run
    rcases first : p.on t with ⟨e | a, between⟩
    · rw [first] at run
      exact nomatch run
    · rw [first] at run
      exact ⟨a, between, rfl, run⟩
  · rintro ⟨a, between, first, run⟩
    rw [first]
    exact run

theorem on_eq_ok {p : Program (StateM FileTree) α} {a : α} (ends : (p.on t).1 = .ok a) :
    p.on t = (.ok a, (p.on t).2) := by
  rw [← ends]

theorem on_orFail_eq_ok {ε : Type} {message : String} {reasons : ε → List String}
    {action : StateM FileTree (Except ε α)} {a : α} :
    (orFail message reasons action).on t = (.ok a, t') ↔ action.run t = (.ok a, t') := by
  rw [orFail, on_bind, on_lift]
  rcases action.run t with ⟨e | b, after⟩
  · exact ⟨fun run => (nomatch run), fun run => (nomatch run)⟩
  · constructor
    · rintro ⟨⟩
      rfl
    · rintro ⟨⟩
      rfl

end Program

end NodeScript
