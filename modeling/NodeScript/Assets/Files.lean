import NodeScript.OrderedMap

/-!
Files and their paths. A path is text: names with slashes between them, where repeated slashes and dots
that stand for the directory they are in name nothing of their own. What is done with files is said by
a few operations that any monad may offer; a tree of files that is kept in memory is one way to have
them.
-/

namespace NodeScript

/-- What stands between the slashes of a path. -/
def pathParts (path : String) : List String := (path.toList.splitOn '/').map String.ofList

/-- The names of a path. A dot counts as a name only at the start of a relative path. -/
def pathNames (path : String) : List String :=
  let parts := pathParts path
  let named := parts.filter fun part => part ≠ "" && part ≠ "."
  if parts.head? = some "." then "." :: named else named

/-- Whether a path starts at the root. -/
def isAbsolutePath (path : String) : Bool := path.toList.head? = some '/'

/-- The path within a directory; an absolute path stays what it is. -/
def joinPath (directory path : String) : String :=
  if isAbsolutePath path || directory.isEmpty then path
  else if directory.toList.getLast? = some '/' then directory ++ path
  else directory ++ "/" ++ path

/-- The path of names. -/
def pathOfNames (absolute : Bool) (names : List String) : String :=
  (if absolute then "/" else "") ++ "/".intercalate names

/-- The directory that a path lies in. The root and the empty path lie in none. -/
def parentPath? (path : String) : Option String :=
  match pathNames path with
  | [] => none
  | names => some (pathOfNames (isAbsolutePath path) names.dropLast)

/-- The last name of a path, unless it leads to the directory itself or the one above. -/
def fileName? (path : String) : Option String :=
  match (pathNames path).getLast? with
  | some name => if name = "." || name = ".." then none else some name
  | none => none

/-- What stands behind the last dot of the name of a file, if something stands before the dot. -/
def fileExtension? (name : String) : Option String :=
  let extension := (name.toList.reverse.takeWhile (· ≠ '.')).reverse
  if name = ".." || name.length ≤ extension.length + 1 then none
  else some (String.ofList extension)

/-- Why something could not be done with a file. -/
inductive FileFault where
  | notFound
  | alreadyExists
  | notDirectory
  | isDirectory
  | nameTooLong
  | nulInName
  | noSpace
  /-- Any other reason by its wording. -/
  | other (message : String)
deriving DecidableEq, Repr, Inhabited

/-- The wording of the fault. -/
def FileFault.message : FileFault → String
  | .notFound => "No such file or directory (os error 2)"
  | .alreadyExists => "File exists (os error 17)"
  | .notDirectory => "Not a directory (os error 20)"
  | .isDirectory => "Is a directory (os error 21)"
  | .nameTooLong => "File name too long (os error 36)"
  | .nulInName => "file name contained an unexpected NUL byte"
  | .noSpace => "No space left on device (os error 28)"
  | .other message => message

instance : ToString FileFault := ⟨FileFault.message⟩

/-- A monad with files in it. -/
class MonadFiles (m : Type → Type) where
  /-- The text of a file. -/
  readText : String → m (Except FileFault String)
  /-- Writes the text of a file, which is made if it is not there. -/
  writeText : String → String → m (Except FileFault Unit)
  /-- Whether there is a file of a path. -/
  isFile : String → m Bool
  /-- Takes a file away and says whether it was there. -/
  remove : String → m Bool
  /-- Makes a directory and those around it. -/
  createDirectories : String → m (Except FileFault Unit)
  /-- The files below a directory by their paths from there on. -/
  filesBelow : String → m (Except FileFault (List String))

/-- What a path of a file tree leads to. -/
inductive FileEntry where
  | directory
  | file (text : String)
  /-- Takes all that is written to it and keeps nothing. -/
  | void
  /-- Takes nothing that is written to it. -/
  | full
  /-- Shows what is written to it. -/
  | outlet (written : String)
deriving DecidableEq, Repr, Inhabited

/-- A tree of files: entries by the names on the way to them from the root. Paths that do not start
at the root start at a directory of the tree. -/
structure FileTree where
  entries : OrderedMap (List String) FileEntry
  home : List String
deriving DecidableEq

namespace FileTree

/-- The directories that every tree has at its root. -/
def standardDirectories : List String :=
  ["bin", "boot", "dev", "etc", "home", "lib", "media", "mnt", "opt", "proc", "root", "run", "sbin",
    "srv", "sys", "tmp", "usr", "var"]

/-- The devices that every tree has. -/
def standardDevices : List (String × FileEntry) :=
  [("null", .void), ("zero", .void), ("stdin", .void), ("full", .full), ("stdout", .outlet ""),
    ("stderr", .outlet "")]

/-- The directory that paths start at in a tree without files of its own. -/
def standardHome : List String := ["tmp", "scratch"]

/-- The tree without files of its own. -/
def empty : FileTree where
  entries := .ofList
    (standardDirectories.map (fun name => ([name], .directory))
      ++ standardDevices.map (fun (name, entry) => (["dev", name], entry))
      ++ [(standardHome, .directory)])
  home := standardHome

instance : Inhabited FileTree := ⟨empty⟩

/-- The entry at the end of a way; the root is a directory. -/
def entry? (t : FileTree) (names : List String) : Option FileEntry :=
  if names.isEmpty then some .directory else t.entries.get? names

/-- How many bytes a name may have. -/
def nameLimit : Nat := 255

/-- How many bytes a path may have. -/
def pathLimit : Nat := 4095

/-- Whether an entry may have a name. -/
def nameFits (name : String) : Bool := name.utf8ByteSize ≤ nameLimit

/-- Why names lead nowhere from a way on, which leads to an entry. -/
def missingFrom (t : FileTree) (way : List String) : List String → FileFault
  | [] => .notFound
  | name :: rest =>
    match t.entry? way with
    | some .directory =>
      match t.entry? (way ++ [name]) with
      | some _ => missingFrom t (way ++ [name]) rest
      | none => if nameFits name then .notFound else .nameTooLong
    | _ => .notDirectory

/-- Why there is nothing at the end of a way. -/
def missing (t : FileTree) (names : List String) : FileFault := t.missingFrom [] names

/-- The way that names lead from a way on. Two dots lead out of a directory, which has to be there.
-/
def wayFrom (t : FileTree) (way : List String) : List String → Except FileFault (List String)
  | [] => .ok way
  | name :: rest =>
    if name = "." then wayFrom t way rest
    else if name = ".." then
      match t.entry? way with
      | some .directory => wayFrom t way.dropLast rest
      | some _ => .error .notDirectory
      | none => .error (t.missing way)
    else wayFrom t (way ++ [name]) rest

/-- The way that a path starts with. -/
def startOf (t : FileTree) (path : String) : List String :=
  if isAbsolutePath path then [] else t.home

/-- Requires that a path can be looked up at all: no name holds the character that ends names, and
the whole is not too long. -/
def checkPath (path : String) : Except FileFault Unit :=
  if path.toList.contains '\x00' then .error .nulInName
  else if pathLimit < path.utf8ByteSize then .error .nameTooLong
  else .ok ()

/-- The way to a path. -/
def wayTo (t : FileTree) (path : String) : Except FileFault (List String) := do
  checkPath path
  if path.isEmpty then throw .notFound
  t.wayFrom (t.startOf path) (pathNames path)

/-- Whether a path says that it leads to a directory. -/
def asksForDirectory (path : String) : Bool :=
  match (pathParts path).reverse with
  | last :: _ :: _ => last = "" || last = "."
  | _ => false

/-- The entry at the end of a path. -/
def find (t : FileTree) (path : String) : Except FileFault FileEntry := do
  let way ← t.wayTo path
  match t.entry? way with
  | some .directory => return .directory
  | some entry => if asksForDirectory path then throw .notDirectory else return entry
  | none => throw (t.missing way)

/-- The text of a file. Devices hold none. -/
def readText (t : FileTree) (path : String) : Except FileFault String := do
  match ← t.find path with
  | .file text => return text
  | .directory => throw .isDirectory
  | _ => return ""

/-- Whether there is a file of a path. -/
def isFile (t : FileTree) (path : String) : Bool :=
  match t.find path with
  | .ok (.file _) => true
  | _ => false

/-- Whether there is a directory of a path. -/
def isDirectory (t : FileTree) (path : String) : Bool :=
  match t.find path with
  | .ok .directory => true
  | _ => false

/-- Whether an entry can be made at the end of a way. -/
def canHold (t : FileTree) (way : List String) : Bool :=
  t.entry? way.dropLast = some .directory && (way.getLast?).all nameFits

/-- Writes the text of a file in a directory that is there. -/
def writeText (t : FileTree) (path text : String) : Except FileFault FileTree := do
  let way ← t.wayTo path
  let inside := asksForDirectory path
  match t.entry? way with
  | some .directory => throw .isDirectory
  | some entry =>
    if inside then throw .notDirectory
    else
      match entry with
      | .full => throw .noSpace
      | .outlet written =>
        return { t with entries := t.entries.insert way (.outlet (written ++ text)) }
      | .void => return t
      | _ => return { t with entries := t.entries.insert way (.file text) }
  | none =>
    if !t.canHold way then throw (t.missing way)
    else if inside then throw .isDirectory
    else return { t with entries := t.entries.insert way (.file text) }

/-- Makes a directory in one that is there, by names from a way on. -/
def makeDirectory (t : FileTree) (start names : List String) : Except FileFault FileTree := do
  let way ← t.wayFrom start names
  match t.entry? way with
  | some _ => throw .alreadyExists
  | none =>
    if t.canHold way then return { t with entries := t.entries.insert way .directory }
    else throw (t.missing way)

/-- Whether names lead to a directory from a way on. -/
def leadsToDirectory (t : FileTree) (start names : List String) : Bool :=
  match t.wayFrom start names with
  | .ok way => t.entry? way = some .directory
  | .error _ => false

/-- Makes a directory that may be there already. -/
def ensureDirectory (t : FileTree) (start names : List String) : Except FileFault FileTree :=
  match t.makeDirectory start names with
  | .ok made => .ok made
  | .error fault => if t.leadsToDirectory start names then .ok t else .error fault

/-- Makes a directory, and before it those around it if they are missing, by names in reverse order
from a way on. What has been made stays when the rest cannot be made. -/
def makeAround (t : FileTree) (start : List String) :
    (reversed : List String) → FileTree × Except FileFault Unit
  | [] => (t, .ok ())
  | last :: before =>
    let names := (last :: before).reverse
    match t.ensureDirectory start names with
    | .ok made => (made, .ok ())
    | .error .notFound =>
      match makeAround t start before with
      | (around, .error fault) => (around, .error fault)
      | (around, .ok ()) =>
        match around.ensureDirectory start names with
        | .ok made => (made, .ok ())
        | .error fault => (around, .error fault)
    | .error fault => (t, .error fault)

/-- Makes a directory and those around it. -/
def createDirectories (t : FileTree) (path : String) : FileTree × Except FileFault Unit :=
  match checkPath path with
  | .ok () => t.makeAround (t.startOf path) (pathNames path).reverse
  | .error fault => (t, .error fault)

/-- The rest of a list behind a beginning. -/
def behind? (beginning names : List String) : Option (List String) :=
  if beginning.isPrefixOf names then some (names.drop beginning.length) else none

/-- The files at the end of a way and below it, with their paths from there on. -/
def filesFrom (t : FileTree) (way : List String) : List (String × String) :=
  t.entries.entries.filterMap fun (names, entry) =>
    match entry with
    | .file text => (behind? way names).map fun names => ("/".intercalate names, text)
    | _ => none

/-- The files below a directory by their paths from there on. A file stands for itself. -/
def filesBelow (t : FileTree) (path : String) : Except FileFault (List String) := do
  let _ ← t.find path
  let way ← t.wayTo path
  return (t.filesFrom way).map (·.1)

/-- Every file below the directory that paths start at, with its path. -/
def files (t : FileTree) : List (String × String) := t.filesFrom t.home

/-- What has been written to a device that shows it. -/
def shown (t : FileTree) (device : String) : String :=
  match t.entry? ["dev", device] with
  | some (.outlet written) => written
  | _ => ""

/-- Puts a file into a tree with the directories around it. -/
def withFile (t : FileTree) (path text : String) : FileTree :=
  let around := (t.createDirectories ((parentPath? path).getD "")).1
  (around.writeText path text).toOption.getD around

/-- Takes a file out of a tree and says whether it was there. -/
def remove (t : FileTree) (path : String) : Bool × FileTree :=
  match t.isFile path, t.wayTo path with
  | true, .ok way => (true, { t with entries := t.entries.erase way })
  | _, _ => (false, t)

instance : MonadFiles (StateM FileTree) where
  readText path := do return (← get).readText path
  writeText path text := modifyGet fun t =>
    match t.writeText path text with
    | .ok written => (.ok (), written)
    | .error fault => (.error fault, t)
  isFile path := do return (← get).isFile path
  remove path := modifyGet fun t => t.remove path
  createDirectories path := modifyGet fun t =>
    let (made, result) := t.createDirectories path
    (result, made)
  filesBelow path := do return (← get).filesBelow path

end FileTree

end NodeScript
