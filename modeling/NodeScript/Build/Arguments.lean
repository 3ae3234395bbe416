import NodeScript.Text.Lines

/-!
The arguments of the program: options, the name of a command, and what the command works on.

What the program says about how it is used: a page about the program and one about each command.
-/

namespace NodeScript

/-! ### Arguments -/

/-- What the program is asked to do. -/
inductive BuildCommand where
  /-- Compiles one graph and writes the code to a file or prints it. -/
  | compile (graph : String) (output : Option String)
  /-- Compiles the graphs of a project. -/
  | buildAll (project : String) (output : Option String) (json : Bool)
  /-- Checks that a graph survives being stored. -/
  | check (graph : String)
deriving DecidableEq, Repr

/-- The arguments of the program. -/
structure Invocation where
  /-- The file of the settings, in place of that of the project. -/
  settings : Option String
  /-- The file of further types. -/
  types : Option String
  command : BuildCommand
deriving DecidableEq, Repr

/-- The commands by name. -/
inductive CommandName where
  | compile | buildAll | check
deriving DecidableEq, Repr

/-- The commands. -/
def CommandName.all : List CommandName := [.compile, .buildAll, .check]

/-- The name of a command as it is written. -/
def CommandName.text : CommandName → String
  | .compile => "compile"
  | .buildAll => "build-all"
  | .check => "check"

/-- The command of a name. -/
def CommandName.ofText? (text : String) : Option CommandName :=
  CommandName.all.find? (·.text = text)

/-- What help is about. -/
inductive HelpTopic where
  | program
  | command (name : CommandName)
  | help
deriving DecidableEq, Repr

/-- What help is asked for by the words behind `help`, if there is something about them. -/
def HelpTopic.ofWords? : List String → Option HelpTopic
  | [] => some .program
  | [word] => if word = "help" then some .help else (CommandName.ofText? word).map .command
  | _ => none

/-- Why the arguments do not say what to do. -/
inductive UsageFault where
  | helpWanted (topic : HelpTopic)
  | wrong
deriving DecidableEq, Repr

/-- The options. -/
inductive OptionName where
  | settings | types | output | json | help
deriving DecidableEq, Repr

/-- The option of a long name. -/
def OptionName.ofLong? : String → Option OptionName
  | "settings" => some .settings
  | "types" => some .types
  | "output" => some .output
  | "json" => some .json
  | "help" => some .help
  | _ => none

/-- The arguments that have been read. -/
structure ReadArguments where
  settings : Option String
  types : Option String
  command : Option CommandName
  /-- What the command works on. -/
  subject : Option String
  output : Option String
  json : Bool
  /-- The options that have been given since the name of the command, or before it. -/
  given : List OptionName
deriving DecidableEq, Repr, Inhabited

/-- An argument that is an option, with the value that it holds itself. -/
inductive OptionText where
  | plain
  | option (name : OptionName) (value : Option String)
  | unknown
deriving DecidableEq, Repr

/-- The option that an argument is. -/
def OptionText.ofArgument (argument : String) : OptionText :=
  match argument.toList with
  | '-' :: '-' :: letters =>
    let (name, value) := match cutAt? '=' letters with
      | some (name, value) => (name, some (String.ofList value))
      | none => (letters, none)
    match OptionName.ofLong? (String.ofList name) with
    | some known => .option known value
    | none => .unknown
  | '-' :: 'o' :: '=' :: value => .option .output (some (String.ofList value))
  | ['-', 'o'] => .option .output none
  | '-' :: 'o' :: value => .option .output (some (String.ofList value))
  | '-' :: 'h' :: _ => .option .help none
  | ['-'] => .plain
  | '-' :: _ => .unknown
  | _ => .plain

/-- A result of reading arguments. -/
abbrev Usage (α : Type) := Except UsageFault α

namespace ReadArguments

/-- Notes that an option is given. In front of the name of the command, and again behind it, every
option may be given once. -/
def give (r : ReadArguments) (option : OptionName) : Usage ReadArguments :=
  if r.given.contains option then .error .wrong else .ok { r with given := option :: r.given }

/-- Whether a command has an option. -/
def allows (r : ReadArguments) : OptionName → Bool
  | .settings | .types | .help => true
  | .output => r.command = some .compile || r.command = some .buildAll
  | .json => r.command = some .buildAll

/-- Takes an option with its value. A value behind the name of the command counts more than one in
front of it. -/
def withValue (r : ReadArguments) (option : OptionName) (value : String) : Usage ReadArguments := do
  let r ← r.give option
  if value.isEmpty then throw .wrong
  match option with
  | .settings => return { r with settings := some value }
  | .types => return { r with types := some value }
  | .output => return { r with output := some value }
  | .json | .help => throw .wrong

/-- Takes the name of the command. -/
def withCommand (r : ReadArguments) (argument : String) : Usage ReadArguments :=
  match CommandName.ofText? argument with
  | some command => .ok { r with command := some command, given := [] }
  | none => .error .wrong

/-- Takes what the command works on. -/
def withSubject (r : ReadArguments) (argument : String) : Usage ReadArguments :=
  if r.command.isNone || r.subject.isSome || argument.isEmpty then .error .wrong
  else .ok { r with subject := some argument }

/-- What help is about that is asked for by an option. -/
def helpTopic (r : ReadArguments) : HelpTopic := (r.command.map .command).getD .program

/-- Reads arguments; behind two dashes none is an option. -/
def readAll (r : ReadArguments) (plain : Bool) : List String → Usage ReadArguments
  | [] => .ok r
  | argument :: rest =>
    if plain then do readAll (← r.withSubject argument) true rest
    else if argument = "--" then readAll r true rest
    else
      match OptionText.ofArgument argument with
      | .plain =>
        if r.command.isSome then do readAll (← r.withSubject argument) false rest
        else if argument = "help" then
          match HelpTopic.ofWords? rest with
          | some topic => .error (.helpWanted topic)
          | none => .error .wrong
        else do readAll (← r.withCommand argument) false rest
      | .unknown => .error .wrong
      | .option name value =>
        if !r.allows name then .error .wrong
        else
          match name, value with
          | .help, none => .error (.helpWanted r.helpTopic)
          | .json, none => do readAll { ← r.give .json with json := true } false rest
          | _, some value => do readAll (← r.withValue name value) false rest
          | _, none =>
            match rest with
            | [] => .error .wrong
            | value :: rest =>
              match OptionText.ofArgument value with
              | .plain => do readAll (← r.withValue name value) false rest
              | _ => .error .wrong

/-- What the arguments ask for. -/
def invocation (r : ReadArguments) : Usage Invocation := do
  let command ← match r.command, r.subject with
    | some .compile, some graph => pure (BuildCommand.compile graph r.output)
    | some .buildAll, subject => pure (.buildAll (subject.getD ".") r.output r.json)
    | some .check, some graph => pure (.check graph)
    | _, _ => throw .wrong
  return ⟨r.settings, r.types, command⟩

end ReadArguments

/-- What the arguments of the program ask for. -/
def Invocation.ofArguments (arguments : List String) : Usage Invocation := do
  (← ReadArguments.readAll default false arguments).invocation

/-! ### Pages -/

/-- Something that help explains, with what it says of it. -/
structure HelpEntry where
  title : String
  about : String
deriving DecidableEq, Repr

/-- A page of help. -/
structure HelpPage where
  about : String
  usage : String
  /-- The parts of the page, each with its heading. -/
  sections : List (String × List HelpEntry)
deriving DecidableEq, Repr

/-- The lines about the parts of a section, what is said of them below each other. -/
def entryLines (entries : List HelpEntry) : String :=
  let width := (entries.map (·.title.length)).foldl max 0
  String.join (entries.map fun e =>
    "  " ++ e.title ++ String.ofList (List.replicate (width - e.title.length + 2) ' ') ++ e.about
      ++ "\n")

/-- The text of a page. -/
def HelpPage.text (p : HelpPage) : String :=
  p.about ++ "\n\nUsage: " ++ p.usage ++ "\n" ++
    String.join (p.sections.map fun (heading, entries) => s!"\n{heading}:\n" ++ entryLines entries)

/-- The name of the program. -/
def programTitle : String := "ordoplay_script"

/-- What a command does. -/
def CommandName.about : CommandName → String
  | .compile => "Compile one graph"
  | .buildAll => "Compile every graph of a project, continuing past failures"
  | .check => "Save, reload and compare a graph's structure"

/-- What `help` does. -/
def aboutHelp : String := "Print this message or the help of the given subcommand(s)"

namespace HelpEntry

/-- The option that names a file of settings. -/
def settings : HelpEntry :=
  ⟨"    --settings <SETTINGS>",
    "Settings file (defaults to script_settings.ron next to the graphs)"⟩

/-- The option that names a file of types. -/
def types : HelpEntry :=
  ⟨"    --types <TYPES>", "Type database in RON, merged over the built-in types"⟩

/-- The option that asks for help. -/
def help : HelpEntry := ⟨"-h, --help", "Print help"⟩

/-- The option that names what is written. -/
def output (about : String) : HelpEntry := ⟨"-o, --output <OUTPUT>", about⟩

/-- The option that asks for a report. -/
def json : HelpEntry := ⟨"    --json", "Print the report as JSON"⟩

/-- The graph that a command works on. -/
def graph : HelpEntry := ⟨"<GRAPH>", "Graph asset"⟩

end HelpEntry

/-- What is behind the name of a command in its usage, and what it says of that. -/
def CommandName.parts : CommandName → String × HelpEntry × List HelpEntry
  | .compile =>
    ("<GRAPH>", .graph,
      [.output "Output file (stdout when omitted)", .settings, .types, .help])
  | .buildAll =>
    ("[DIR]", ⟨"[DIR]", "Project directory [default: .]"⟩,
      [.output "Directory receiving one source file per graph", .settings, .json, .types, .help])
  | .check => ("<GRAPH>", .graph, [.settings, .types, .help])

/-- The page about a topic. -/
def HelpTopic.page : HelpTopic → HelpPage
  | .program =>
    { about := "Compile OrdoPlay visual script graphs to C#"
      usage := programTitle ++ " [OPTIONS] <COMMAND>"
      sections := [
        ("Commands", CommandName.all.map (fun c => ⟨c.text, c.about⟩) ++ [⟨"help", aboutHelp⟩]),
        ("Options", [.settings, .types, .help])] }
  | .command c =>
    let (subject, argument, options) := c.parts
    { about := c.about
      usage := programTitle ++ " " ++ c.text ++ " [OPTIONS] " ++ subject
      sections := [("Arguments", [argument]), ("Options", options)] }
  | .help =>
    { about := aboutHelp
      usage := programTitle ++ " help [COMMAND]..."
      sections := [("Arguments", [⟨"[COMMAND]...", "Print help for the subcommand(s)"⟩])] }

end NodeScript
