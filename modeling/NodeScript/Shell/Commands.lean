import NodeScript.Assets.Files
import NodeScript.Build.Command
import NodeScript.Shell.Execute

/-!
Commands where no programs of the host are run. The shell and the tools that it knows are there, and
any other program is not found. A command finds the files that it names, and leaves them as it has
made them.
-/

namespace NodeScript

open Shell

/-- Why a command could not be run. -/
inductive CommandFault where
  | nulByte
  | notFound
  | permissionDenied
  | notDirectory
  | nameTooLong
  | argumentsTooLong
  | brokenPipe
deriving DecidableEq, Repr

/-- The wording of the fault. -/
def CommandFault.message : CommandFault → String
  | .nulByte => "nul byte found in provided data"
  | .notFound => "No such file or directory (os error 2)"
  | .permissionDenied => "Permission denied (os error 13)"
  | .notDirectory => "Not a directory (os error 20)"
  | .nameTooLong => "File name too long (os error 36)"
  | .argumentsTooLong => "Argument list too long (os error 7)"
  | .brokenPipe => "Broken pipe (os error 32)"

/-- Paths that are there but cannot be run. -/
def unrunnablePaths : List String :=
  [".", "..", "/", "/bin", "/dev", "/dev/null", "/etc", "/etc/passwd", "/home", "/root", "/tmp",
    "/usr", "/usr/bin", "/var"]

/-- How many bytes an argument may have. -/
def argumentLimit : Nat := 131071

/-- How many bytes wait to be read before a writer has to wait. -/
def pipeCapacity : Nat := 65536

/-- Why a program cannot be run, if it cannot. Files are no programs. -/
def programFault? (files : List (String × String)) (program : String) : Option CommandFault :=
  let names := program.splitOn "/"
  let known := programNames.map String.toList
  if names.any fun name => 255 < name.utf8ByteSize then some .nameTooLong
  else if 4095 < program.utf8ByteSize then some .nameTooLong
  else if known.contains (Shell.programName program.toList) then none
  else if files.any (·.1 = program) && 1 < names.length then some .permissionDenied
  else if unrunnablePaths.contains program
      || (program.endsWith "/" && unrunnablePaths.contains (String.ofList program.toList.dropLast))
      then some .permissionDenied
  else if programDirectories.any fun directory =>
      known.any fun name => (directory.toList ++ name ++ ['/']).isPrefixOf program.toList then
    some .notDirectory
  else some .notFound
where
  /-- The programs that are there. -/
  programNames : List String :=
    utilities.map Prod.fst ++ Run.actingPrograms ++ Run.shellDialects.map Prod.fst
      ++ ["test", "[", "pwd", "kill"]

/-- Why a program cannot be run with arguments, if it cannot. -/
def commandFault? (files : List (String × String)) (program : String) (arguments : List String) :
    Option CommandFault :=
  if (program :: arguments).any fun text => text.toList.contains '\x00' then some .nulByte
  else if arguments.any fun argument => argumentLimit < argument.utf8ByteSize then
    some .argumentsTooLong
  else programFault? files program

/-- What came of a command: all that it printed, its output and behind it its errors, unless it
could not be run; and the files as it has left them. -/
structure CommandRun where
  printed : Except CommandFault String
  files : List (String × String)

/-- Runs a program with its arguments on an input and with files. -/
def runCommand (files : List (String × String)) (program : String) (arguments : List String)
    (input : String) : CommandRun :=
  match commandFault? files program arguments with
  | some fault => ⟨.error fault, files⟩
  | none =>
    let action := Run.programAlone (bytesOf program) (arguments.map bytesOf)
    let world := Run.finish action
      (.start (bytesOf input) (files.map fun (path, text) => (bytesOf path, bytesOf text)))
    let printed :=
      if pipeCapacity < (world.textOf World.input).length then .error .brokenPipe
      else .ok (textOf (world.textOf World.output) ++ textOf (world.textOf World.errors))
    ⟨printed, world.fileTexts.map fun (path, text) => (textOf path, textOf text)⟩

/-- The compiler that is run as a command where some files are, which it does not change. -/
def Backend.command (files : List (String × String)) (program : String) (arguments : List String) :
    Backend := fun _ source =>
  match (runCommand files program arguments source).printed with
  | .ok printed => parseDiagnostics printed
  | .error fault => [unrunnable program fault.message]

/-- The words in a text, and the text itself. -/
def wordsWithin (text : String) : List String :=
  text :: (text.splitToList fun c => Shell.endsWord c || c = '"' || c = '\'')

/-- The files that some paths lead to, with their texts. -/
def namedFiles {m : Type → Type} [Monad m] [MonadFiles m] :
    List String → m (List (String × String))
  | [] => return []
  | path :: rest => do
    match ← MonadFiles.readText path with
    | .ok text => return (path, text) :: (← namedFiles rest)
    | .error _ => namedFiles rest

/-- Commands find the files that they name, also within their arguments, and write what they have
changed, as far as it can be written. -/
instance {m : Type → Type} [Monad m] [MonadFiles m] : MonadCommands m where
  run program arguments input := do
    let before ← namedFiles (program :: arguments.flatMap wordsWithin).eraseDups
    let after := runCommand before program arguments input
    for (path, text) in after.files do
      if before.lookup path ≠ some text then
        let _ ← MonadFiles.writeText path text
    return after.printed.mapError CommandFault.message

end NodeScript
