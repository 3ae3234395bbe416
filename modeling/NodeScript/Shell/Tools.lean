import NodeScript.Shell.Utility

/-!
The tool that edits text line by line. Its script is a list of edits, each with the lines that it is
made in; those in braces are passed by together.

The tools that a script or a compiler can be run with, by their names.
-/

namespace NodeScript.Shell

/-! ### Edits of lines -/

/-- What tells a line. -/
inductive LineAddress where
  | number (n : Nat)
  | last
  | pattern (r : Regex) (anyCase : Bool)
  /-- So many lines behind the first one. -/
  | behind (count : Nat)

/-- Lines from a first to a last one. -/
structure LineRange where
  first : LineAddress
  last : Option LineAddress
  inverted : Bool
  /-- The line where the range has started, if it has not ended. -/
  running : Option Nat

/-- A part of the text that a found one is replaced with. -/
inductive ReplacementPart where
  | char (c : Char)
  | group (number : Nat)

/-- What is done to a line. -/
inductive Edit where
  | replace (pattern : Regex) (anyCase : Bool) (parts : List ReplacementPart) (number : Nat)
      (every shown : Bool)
  | delete
  | print
  | showNumber
  | quit (shown : Bool)
  | exchange (given taken : Bytes)
  | insert (text : Bytes)
  | append (text : Bytes)
  | change (text : Bytes)
  /-- Makes so many of the edits that follow. -/
  | group (count : Nat)

/-- An edit with the lines that it is made in. -/
structure PlacedEdit where
  range : Option LineRange
  edit : Edit

/-- What has become of a line: its text, what is printed before and behind it, and whether it is
deleted or the last. -/
structure EditedLine where
  text : Bytes
  before : List Bytes
  after : List Bytes
  deleted : Bool
  quit : Bool

/-- Whether an address tells a line by its number, text and whether it is the last. -/
def LineAddress.tells (number : Nat) (text : Bytes) (isLast : Bool) : LineAddress → Bool
  | .number n => n = number
  | .last => isLast
  | .pattern r anyCase => (r.find? anyCase none text).isSome
  | .behind _ => false

/-- Whether a line is in a range, and the range behind it. -/
def LineRange.step (r : LineRange) (number : Nat) (text : Bytes) (isLast : Bool) :
    Bool × LineRange :=
  let ends (start : Nat) : Bool :=
    match r.last with
    | none => true
    | some (.number n) => n ≤ number
    | some (.behind count) => start + count ≤ number
    | some address => start < number && address.tells number text isLast
  match r.running with
  | some start => (!r.inverted, if ends start then { r with running := none } else r)
  | none =>
    if r.first.tells number text isLast then
      (!r.inverted, if ends number then r else { r with running := some number })
    else (r.inverted, r)

/-- The text that a found one is replaced with. -/
def replacementText (found : Found) (parts : List ReplacementPart) : Bytes :=
  parts.flatMap fun
    | .char c => [c]
    | .group 0 => found.text
    | .group number => (found.groups.lookup number).getD []

/-- A line with what was found in it replaced, from one of several on or only in it. -/
def replaceIn (line : Bytes) (found : List Found) (parts : List ReplacementPart) (number : Nat)
    (every : Bool) : Bytes :=
  let pieces := found.zipIdx.map fun (f, i) =>
    let chosen := if every then number ≤ i + 1 else number = i + 1
    f.before ++ (if chosen then replacementText f parts else f.text)
  pieces.flatten ++ ((found.getLast?.map (·.after)).getD line)

/-- Makes an edit in a line. -/
def Edit.apply (e : Edit) (number : Nat) (l : EditedLine) : EditedLine :=
  match e with
  | .replace pattern anyCase parts nth every shown =>
    let found := pattern.findAll anyCase (l.text.length + 2) false none l.text
    if found.length < nth then l
    else
      let text := replaceIn l.text found parts nth every
      { l with text, before := if shown then l.before ++ [text] else l.before }
  | .delete => { l with deleted := true }
  | .print => { l with before := l.before ++ [l.text] }
  | .showNumber => { l with before := l.before ++ [digitsIn 10 number] }
  | .quit shown => { l with quit := true, deleted := l.deleted || !shown }
  | .exchange given taken =>
    { l with text := l.text.map fun c =>
        match given.idxOf? c with
        | some i => taken[i]?.getD c
        | none => c }
  | .insert text => { l with before := l.before ++ [text] }
  | .append text => { l with after := l.after ++ [text] }
  | .change text => { l with before := l.before ++ [text], deleted := true }
  | .group _ => l

/-- Makes the edits of a script in a line, of which `skipped` are passed by, and gives the script
with what its ranges have come to. -/
def editLine (number : Nat) (isLast : Bool) :
    (skipped : Nat) → List PlacedEdit → EditedLine → List PlacedEdit × EditedLine
  | _, [], l => ([], l)
  | skipped + 1, e :: rest, l =>
    let (others, l) := editLine number isLast skipped rest l
    (e :: others, l)
  | 0, e :: rest, l =>
    if l.deleted || l.quit then (e :: rest, l)
    else
      let (chosen, range) :=
        match e.range with
        | some range =>
          let (chosen, next) := range.step number l.text isLast
          (chosen, some next)
        | none => (true, none)
      let passed :=
        match e.edit with
        | .group count => if chosen then 0 else count
        | _ => 0
      let (others, l) :=
        editLine number isLast passed rest (if chosen then e.edit.apply number l else l)
      ({ e with range } :: others, l)

/-- Edits lines from one on, and gives the lines that are printed. -/
def editLines (silent : Bool) : List PlacedEdit → (number : Nat) → List Bytes → List Bytes
  | _, _, [] => []
  | edits, number, line :: rest =>
    let (edits, l) := editLine number rest.isEmpty 0 edits ⟨line, [], [], false, false⟩
    let shown := l.before ++ (if silent || l.deleted then [] else [l.text]) ++ l.after
    shown ++ (if l.quit then [] else editLines silent edits (number + 1) rest)

/-- The text up to a mark, which is taken for itself behind a backslash, and what is behind it. -/
def takeMarked (mark : Char) : Bytes → Option (Bytes × Bytes)
  | [] => none
  | '\\' :: c :: rest =>
    (takeMarked mark rest).map fun (text, after) =>
      (if c = mark then c :: text else '\\' :: c :: text, after)
  | c :: rest =>
    if c = mark then some ([], rest)
    else (takeMarked mark rest).map fun (text, after) => (c :: text, after)

/-- The parts of a replacement. -/
def replacementParts : Bytes → List ReplacementPart
  | [] => []
  | '&' :: rest => .group 0 :: replacementParts rest
  | '\\' :: c :: rest =>
    (if c.isDigit then ReplacementPart.group (c.toNat - '0'.toNat)
      else .char (if c = 'n' then '\n' else if c = 't' then '\t' else c)) :: replacementParts rest
  | c :: rest => .char c :: replacementParts rest

/-- An address at the start of a script, and what is behind it. -/
def takeAddress (extended : Bool) (text : Bytes) : Option (Option LineAddress × Bytes) :=
  let pattern (mark : Char) (rest : Bytes) : Option (Option LineAddress × Bytes) := do
    let (source, after) ← takeMarked mark rest
    let r ← regexOf? extended source
    match after with
    | 'I' :: after => return (some (.pattern r true), after)
    | _ => return (some (.pattern r false), after)
  match text with
  | '$' :: rest => some (some .last, rest)
  | '/' :: rest => pattern '/' rest
  | '\\' :: mark :: rest => pattern mark rest
  | '+' :: rest =>
    some (some (.behind (digitsValue (rest.takeWhile Char.isDigit))), rest.dropWhile Char.isDigit)
  | _ =>
    let digits := text.takeWhile Char.isDigit
    some (if digits.isEmpty then none else some (.number (digitsValue digits)),
      text.drop digits.length)

/-- The lines that an edit at the start of a script is made in, and what is behind them. -/
def takeRange (extended : Bool) (text : Bytes) : Option (Option LineRange × Bytes) := do
  let (first, rest) ← takeAddress extended text
  match first with
  | none => return (none, rest)
  | some first =>
    let rest := rest.dropWhile (· == ' ')
    let (last, rest) ←
      match rest with
      | ',' :: rest => takeAddress extended (rest.dropWhile (· == ' '))
      | _ => pure (none, rest)
    let rest := rest.dropWhile (· == ' ')
    match rest with
    | '!' :: rest => return (some ⟨first, last, true, none⟩, rest)
    | _ => return (some ⟨first, last, false, none⟩, rest)

/-- The edit that replaces text, behind its letter, and what is behind it. -/
def takeReplacement (extended : Bool) (text : Bytes) : Option (Edit × Bytes) :=
  match text with
  | [] => none
  | mark :: rest => do
    let (source, rest) ← takeMarked mark rest
    let (replacement, rest) ← takeMarked mark rest
    let isFlag (c : Char) : Bool := c.isDigit || c = 'g' || c = 'p' || c = 'i' || c = 'I'
    let flags := rest.takeWhile isFlag
    let anyCase := flags.contains 'i' || flags.contains 'I'
    let digits := flags.filter Char.isDigit
    let pattern ← regexOf? extended source
    return (.replace pattern anyCase (replacementParts replacement)
      (if digits.isEmpty then 1 else digitsValue digits) (flags.contains 'g') (flags.contains 'p'),
      rest.dropWhile isFlag)

/-- The text of an edit that brings some, up to the end of the line, and what is behind it. -/
def takeEditText (text : Bytes) : Bytes × Bytes :=
  let text := text.dropWhile (· == ' ')
  let text :=
    match text with
    | '\\' :: '\n' :: rest => rest
    | '\\' :: rest => rest
    | _ => text
  (text.takeWhile (· != '\n'), text.dropWhile (· != '\n'))

/-- The edits of a script up to the end of a group, and what is behind it. -/
def readEdits (extended : Bool) :
    (budget : Bytes) → (grouped : Bool) → Bytes → Option (List PlacedEdit × Bytes)
  | [], _, _ => none
  | _ :: budget, grouped, text =>
    let text := text.dropWhile fun c => c = ' ' || c = '\t' || c = '\n' || c = ';'
    if text.isEmpty then if grouped then none else some ([], [])
    else do
      let (range, rest) ← takeRange extended text
      let rest := rest.dropWhile (· == ' ')
      let place (edit : Edit) (rest : Bytes) : Option (List PlacedEdit × Bytes) :=
        (readEdits extended budget grouped rest).map fun (edits, after) =>
          (⟨range, edit⟩ :: edits, after)
      let placeText (edit : Bytes → Edit) (rest : Bytes) : Option (List PlacedEdit × Bytes) :=
        let (text, after) := takeEditText rest
        place (edit text) after
      match rest with
      | '\x7b' :: rest =>
        let (inside, rest) ← readEdits extended budget true rest
        let (others, rest) ← readEdits extended budget grouped rest
        return (⟨range, .group inside.length⟩ :: inside ++ others, rest)
      | '\x7d' :: rest => if grouped then some ([], rest) else none
      | 's' :: rest =>
        let (edit, rest) ← takeReplacement extended rest
        place edit rest
      | 'y' :: mark :: rest =>
        let (given, rest) ← takeMarked mark rest
        let (taken, rest) ← takeMarked mark rest
        place (.exchange given taken) rest
      | 'd' :: rest => place .delete rest
      | 'p' :: rest => place .print rest
      | '=' :: rest => place .showNumber rest
      | 'q' :: rest => place (.quit true) (rest.dropWhile Char.isDigit)
      | 'Q' :: rest => place (.quit false) (rest.dropWhile Char.isDigit)
      | 'i' :: rest => placeText .insert rest
      | 'a' :: rest => placeText .append rest
      | 'c' :: rest => placeText .change rest
      | '#' :: rest => readEdits extended budget grouped (rest.dropWhile (· != '\n'))
      | _ => none

/-- Edits files line by line. -/
def sedUtility : Utility := withOptions "nErsu" "e" fun o =>
  let given := o.has 'e'
  let script :=
    if given then List.intercalate ['\n'] (o.values 'e') else o.words.headD []
  let files := if given then o.words else o.words.drop 1
  match readEdits (o.has 'E' || o.has 'r') (' ' :: script) false script with
  | none => .done (.failure "sed: -e expression #1, char 1: unknown command" 1)
  | some (edits, _) =>
    onText files fun text => unlinesLike text (editLines (o.has 'n') edits 1 (linesOf text))

/-! ### Tools by their names -/

/-- The tools by their names. -/
def utilities : List (String × Utility) :=
  [("cat", catUtility), ("echo", echoUtility), ("printf", printfTask), ("true", silentUtility 0),
    ("false", silentUtility 1), ("head", endsUtility firstParts), ("tail", endsUtility lastParts),
    ("wc", wcUtility), ("grep", grepUtility false false), ("egrep", grepUtility false true),
    ("fgrep", grepUtility true false), ("sed", sedUtility), ("tr", trUtility), ("cut", cutUtility),
    ("sort", sortUtility), ("uniq", uniqUtility), ("seq", seqUtility), ("nl", nlUtility),
    ("rev", fun _ words => onText words fun text =>
      unlinesLike text ((linesOf text).map List.reverse)),
    ("tac", fun _ words => onText words fun text => (wholeLines text).reverse.flatten),
    ("basename", basenameUtility), ("dirname", dirnameUtility), ("expr", exprTask),
    ("yes", yesUtility), ("sleep", silentUtility 0), ("sync", silentUtility 0),
    ("mkdir", silentUtility 0), ("chmod", silentUtility 0)]

/-- The directories of programs. -/
def programDirectories : List String := ["/bin/", "/usr/bin/"]

/-- The name of a program without the directory of programs, if it stands there. -/
def programName (path : Bytes) : Bytes :=
  (programDirectories.findSome? fun directory => directory.toList.isPrefixOf? path).getD path

/-- The tool of a program. -/
def utility? (program : Bytes) : Option (String × Utility) :=
  let name := textOf (programName program)
  (utilities.lookup name).map (name, ·)

/-- What a tool says of a file that is not there, and how it ends then. -/
def missingFile (name : String) (file : Bytes) : String × Nat :=
  let path := textOf file
  let reason := "No such file or directory"
  match name with
  | "sed" => (s!"sed: can't read {path}: {reason}", 2)
  | "head" => (s!"head: cannot open '{path}' for reading: {reason}", 1)
  | "tail" => (s!"tail: cannot open '{path}' for reading: {reason}", 1)
  | "sort" => (s!"sort: cannot read: {path}: {reason}", 2)
  | "grep" => (s!"grep: {path}: {reason}", 2)
  | _ => (s!"{name}: {path}: {reason}", 1)

/-- What a tool makes of files, some of which may not be there. -/
def produceOnFiles (name : String) (files : List (Bytes × Option Bytes))
    (work : List (Bytes × Bytes) → Produced) : Produced :=
  let missing := (files.filter (·.2.isNone)).map fun (file, _) => missingFile name file
  let present := files.filterMap fun (file, text) => text.map (file, ·)
  let produced :=
    if present.isEmpty && !missing.isEmpty then ⟨[], [], 0⟩ else work present
  { produced with
    complaints := missing.map (·.1) ++ produced.complaints
    status := (missing.map (·.2)).foldl max produced.status }

end NodeScript.Shell
