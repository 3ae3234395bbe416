import NodeScript.Build.Program
import NodeScript.Shell.Commands

/-!
The command line: files of the host, and the arguments and outputs of the process.
-/

namespace NodeScript

/-- The fault of a failed access to a file. -/
def FileFault.ofIO : IO.Error → FileFault
  | .noFileOrDirectory .. => .notFound
  | .alreadyExists .. => .alreadyExists
  | .inappropriateType .. => .isDirectory
  | e => .other (toString e)

/-- Does something with a file of the host. -/
def accessFile {α : Type} (action : IO α) : BaseIO (Except FileFault α) := do
  match ← action.toBaseIO with
  | .ok value => return .ok value
  | .error e => return .error (.ofIO e)

/-- The paths of the files below a directory of the host. -/
def hostFilesBelow (root : String) : IO (List String) := do
  let directory := (← IO.currentDir) / root
  let files ← directory.walkDir
  let start := directory.toString ++ "/"
  let regular ← files.filterM fun file => return !(← file.isDir)
  return (regular.map fun file => (file.toString.drop start.length).toString).toList

instance : MonadFiles BaseIO where
  readText path := accessFile (IO.FS.readFile path)
  writeText path text := accessFile (IO.FS.writeFile path text)
  isFile path := do
    match ← (IO.FS.readFile path).toBaseIO with
    | .ok _ => return true
    | .error _ => return false
  remove path := do
    match ← (IO.FS.removeFile path).toBaseIO with
    | .ok () => return true
    | .error _ => return false
  createDirectories path := accessFile (IO.FS.createDirAll path)
  filesBelow path := accessFile (hostFilesBelow path)

end NodeScript

/-- Runs the program on the files of the host. -/
def main (arguments : List String) : IO UInt32 := do
  let result : NodeScript.ProgramResult ← (NodeScript.runProgram arguments : BaseIO _)
  IO.print result.output
  IO.eprint result.errors
  return UInt32.ofNat result.code
