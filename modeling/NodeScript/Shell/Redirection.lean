import NodeScript.Shell.Condition
import NodeScript.Shell.Expand
import NodeScript.Shell.Tools

/-!
Paths of a script, and the redirections that make descriptors lead to what the paths stand for.
-/

namespace NodeScript.Shell.Run

/-- What a path of a device leads to, if it is one: the channel that its descriptor has. -/
def device? (path : Bytes) : Run (Option (Option ChannelId)) := do
  let digits := ["/dev/fd/", "/proc/self/fd/"].findSome? fun start => start.toList.isPrefixOf? path
  match textOf path with
  | "/dev/null" => return some (some World.void)
  | "/dev/zero" => return some (some World.void)
  | "/dev/stdin" => return some (← channel? 0)
  | "/dev/stdout" => return some (← channel? 1)
  | "/dev/stderr" => return some (← channel? 2)
  | _ =>
    match digits with
    | some digits => return some (← channel? (digitsValue digits))
    | none => return none

/-- Whether a file can be made at a path: files are made only where scripts leave them. -/
def canCreate (path : Bytes) : Bool :=
  !path.isEmpty && (!path.contains '/' || ["/tmp/", "./"].any (·.toList.isPrefixOf path))

/-- How many of its zeros the device shows that has no end of them. -/
def zerosShown : Nat := 200000

/-- The text of what a path leads to. -/
def pathText? (path : Bytes) : Run (Option Bytes) := do
  match ← device? path with
  | some (some id) =>
    if path = "/dev/zero".toList then return some (List.replicate zerosShown '\x00')
    let text := (← get).world.textOf id
    changeWorld (·.leave id [])
    return some text
  | some none => return none
  | none => fileText? path

/-- The channel that a file is written to, which is emptied first unless it is written on. -/
def fileChannel (path : Bytes) (writeOn : Bool) : Run ChannelId := do
  match (← get).world.fileAt? path with
  | some id =>
    if !writeOn then changeWorld (·.leave id [])
    return id
  | none =>
    changeWorld (·.addFile (path, []))
    return ((← get).world.fileAt? path).getD World.void

/-- Makes a descriptor lead to a file that is written, and says whether it can be. -/
def openOutput (descriptor : Nat) (path : Bytes) (writeOn : Bool) : Run Bool := do
  match ← device? path with
  | some (some id) =>
    openDescriptor descriptor id
    return true
  | other =>
    if other.isNone && canCreate path then
      openDescriptor descriptor (← fileChannel path writeOn)
      return true
    else
      complain (bytesOf "cannot create " ++ path ++ bytesOf ": Directory nonexistent")
      return false

/-- Makes a redirection, and says whether it can be made. -/
def redirect (substitute : Bytes → Run Bytes) (r : Redirect) : Run Bool := do
  match r.target with
  | .input path =>
    let path ← expandText substitute path
    match ← device? path with
    | some (some id) =>
      openDescriptor r.descriptor id
      return true
    | _ =>
      match ← fileText? path with
      | some text =>
        openDescriptor r.descriptor (← addChannel text)
        return true
      | none =>
        complain (bytesOf "cannot open " ++ path ++ bytesOf ": No such file")
        return false
  | .output path => openOutput r.descriptor (← expandText substitute path) false
  | .append path => openOutput r.descriptor (← expandText substitute path) true
  | .duplicate descriptor =>
    let word ← expandText substitute descriptor
    if word = ['-'] then
      changeEnvironment fun e => { e with descriptors := e.descriptors.erase r.descriptor }
      return true
    else
      match ← channel? (digitsValue word) with
      | some id =>
        if word.all Char.isDigit then
          openDescriptor r.descriptor id
          return true
        else
          complain (bytesOf "Bad fd number")
          return false
      | none =>
        complain (word ++ bytesOf ": Bad file descriptor")
        return false
  | .text content =>
    openDescriptor r.descriptor (← addChannel (← expandText substitute content))
    return true

/-- Makes redirections up to one that cannot be made, and says whether all could be. -/
def redirectAll (substitute : Bytes → Run Bytes) : List Redirect → Run Bool
  | [] => return true
  | r :: rest => do
    if ← redirect substitute r then redirectAll substitute rest else return false

/-- What a path leads to. -/
def pathKinds : Run (Bytes → Option PathKind) := do
  let w := (← get).world
  return fun path =>
    let text := textOf path
    if ["/dev/null", "/dev/zero", "/dev/stdin", "/dev/stdout", "/dev/stderr"].contains text then
      some .device
    else if ["/", ".", "..", "/tmp", "/bin", "/usr", "/usr/bin", "/dev", "/etc"].contains text then
      some .directory
    else
      match w.fileAt? path with
      | some id => some (.file (w.textOf id).isEmpty)
      | none =>
        if path.contains '/' && (utility? path).isSome then some (.file false) else none

end NodeScript.Shell.Run
