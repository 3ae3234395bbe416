import NodeScript.Translation.Compile

/-!
Compilers that are run as commands. A command reads the code from its input; the errors are found in
what it prints. Which programs there are, what they print and what they do to files is up to the
monad that they are run in.
-/

namespace NodeScript

/-- A monad in which programs are run. -/
class MonadCommands (m : Type → Type) where
  /-- Runs a program with its arguments on an input: all that it printed, its output and behind it
  its errors, or the wording of why it could not be run. -/
  run : String → List String → String → m (Except String String)

/-- The diagnostic of a program that could not be run. -/
def unrunnable (program fault : String) : Diagnostic :=
  ⟨s!"Failed to run compiler {program}: {fault}", none⟩

/-- The compiler that is run as a command. How the command ends does not matter. -/
def BackendIn.command {m : Type → Type} [Monad m] [MonadCommands m] (program : String)
    (arguments : List String) : BackendIn m := fun _ source => do
  match ← MonadCommands.run program arguments source with
  | .ok printed => return parseDiagnostics printed
  | .error fault => return [unrunnable program fault]

end NodeScript
