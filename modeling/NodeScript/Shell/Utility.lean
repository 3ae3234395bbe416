import NodeScript.Shell.Format
import NodeScript.Shell.Regex

/-!
Tools that scripts use on text: they take what is in their files, or else their input, and print.
-/

namespace NodeScript.Shell

/-- What a tool has printed and complained about, and how it ended. -/
structure Produced where
  output : Bytes
  complaints : List String
  status : Nat

/-- Output of a tool that ended well. -/
def Produced.ofOutput (output : Bytes) : Produced := ⟨output, [], 0⟩

/-- The end of a tool that cannot do what it was asked for. -/
def Produced.failure (message : String) (status : Nat) : Produced := ⟨[], [message], status⟩

/-- A tool that has been told what to do. -/
inductive Task where
  | done (produced : Produced)
  /-- Takes what is in files, each with its name. -/
  | onFiles (files : List Bytes) (work : List (Bytes × Bytes) → Produced)

/-- A tool by its name and arguments. -/
abbrev Utility := String → List Bytes → Task

/-- The lines of a text. -/
def linesOf (text : Bytes) : List Bytes :=
  let lines := text.splitOn '\n'
  if lines.getLast? = some [] then lines.dropLast else lines

/-- The text of lines. -/
def unlines (lines : List Bytes) : Bytes := lines.flatMap (· ++ ['\n'])

/-- The text of lines, the last of which ends like that of another text. -/
def unlinesLike (text : Bytes) (lines : List Bytes) : Bytes :=
  if text.isEmpty || text.getLast? = some '\n' then unlines lines
  else List.intercalate ['\n'] lines

/-- A number with blanks in front of it up to a width. -/
def padNumber (width n : Nat) : Bytes := fill [] width (digitsIn 10 n)

/-- Options, each with its value, and the words that are none. -/
structure Options where
  given : List (Char × Bytes)
  words : List Bytes

namespace Options

/-- Whether an option is given. -/
def has (o : Options) (letter : Char) : Bool := o.given.any (·.1 = letter)

/-- The values of an option. -/
def values (o : Options) (letter : Char) : List Bytes :=
  (o.given.filter (·.1 = letter)).map (·.2)

/-- The last value of an option. -/
def value? (o : Options) (letter : Char) : Option Bytes := (o.values letter).getLast?

/-- The options of letters behind a dash, and the option that the next word is the value of. -/
def ofLetters (plain valued : List Char) : Bytes → Option (List (Char × Bytes) × Option Char)
  | [] => some ([], none)
  | c :: rest =>
    if valued.contains c then
      if rest.isEmpty then some ([], some c) else some ([(c, rest)], none)
    else if plain.contains c then
      (ofLetters plain valued rest).map fun (given, pending) => ((c, []) :: given, pending)
    else none

/-- The options in arguments, which may stand behind words. -/
def read (plain valued : List Char) (pending : Option Char) : List Bytes → Option Options
  | [] => if pending.isSome then none else some ⟨[], []⟩
  | argument :: rest =>
    match pending, argument with
    | some letter, value => do
      let o ← read plain valued none rest
      return { o with given := (letter, value) :: o.given }
    | none, ['-', '-'] => some ⟨[], rest⟩
    | none, '-' :: c :: letters => do
      let (given, next) ← ofLetters plain valued (c :: letters)
      let o ← read plain valued next rest
      return { o with given := given ++ o.given }
    | none, word => do
      let o ← read plain valued none rest
      return { o with words := word :: o.words }

end Options

/-- A tool that takes options. -/
def withOptions (plain valued : String) (run : Options → Task) : Utility := fun name arguments =>
  match Options.read plain.toList valued.toList none arguments with
  | some o => run o
  | none => .done (.failure s!"{name}: invalid option" 1)

/-- A tool that changes the text of all its files. -/
def onText (files : List Bytes) (change : Bytes → Bytes) : Task :=
  .onFiles files fun contents => .ofOutput (change (contents.flatMap (·.2)))

/-- A tool that changes the lines of all its files. -/
def onLines (files : List Bytes) (change : List Bytes → List Bytes) : Task :=
  onText files fun text => unlines (change (linesOf text))

/-- A byte as marks that can be seen; line breaks stay, and tabs unless they are to be seen. -/
def visibleByte (tabs : Bool) (c : Char) : Bytes :=
  let low (n : Nat) : Bytes :=
    if n < 32 then ['^', Char.ofNat (n + 64)] else if n = 127 then ['^', '?'] else [Char.ofNat n]
  if c = '\t' then if tabs then ['^', 'I'] else [c]
  else if c.toNat < 128 then low c.toNat
  else 'M' :: '-' :: low (c.toNat - 128)

/-- Prints files, with numbers and marks at their lines if they are asked for. -/
def catUtility : Utility := withOptions "nbEsuATvet" "" fun o =>
  onText o.words fun text =>
    if o.given.all (·.1 = 'u') then text
    else
      let squeezed := (linesOf text).foldl (fun kept line =>
        if o.has 's' && line.isEmpty && kept.head? = some [] then kept else line :: kept) []
      let numbered := squeezed.reverse.foldl (fun (number, shown) line =>
        let tabs := o.has 'T' || o.has 'A' || o.has 't'
        let line :=
          if o.has 'A' || o.has 'v' || o.has 'e' || o.has 't' then line.flatMap (visibleByte tabs)
          else if tabs then line.flatMap fun c => if c = '\t' then ['^', 'I'] else [c]
          else line
        let marked := if o.has 'E' || o.has 'A' || o.has 'e' then line ++ ['$'] else line
        if (o.has 'n' && !o.has 'b') || (o.has 'b' && !line.isEmpty) then
          (number + 1, (padNumber 6 number ++ '\t' :: marked) :: shown)
        else (number, marked :: shown)) (1, [])
      unlinesLike text numbered.2.reverse

/-- Arguments in which a number behind a dash is the value of an option. -/
def spellNumber (arguments : List Bytes) : List Bytes :=
  match arguments with
  | ('-' :: digits@(_ :: _)) :: rest =>
    if digits.all Char.isDigit then ['-', 'n'] :: digits :: rest else arguments
  | _ => arguments

/-- The lines of a text with their line breaks. -/
def wholeLines (text : Bytes) : List Bytes :=
  let lines := linesOf text
  lines.zipIdx.map fun (line, i) =>
    if i + 1 < lines.length || text.getLast? = some '\n' then line ++ ['\n'] else line

/-- The first of some parts; a dash in front of the number leaves out the last. -/
def firstParts {α : Type} (number : Bytes) (parts : List α) : List α :=
  match number with
  | '-' :: digits => parts.take (parts.length - digitsValue digits)
  | digits => parts.take (digitsValue digits)

/-- The last of some parts; a plus in front of the number tells the first of them. -/
def lastParts {α : Type} (number : Bytes) (parts : List α) : List α :=
  match number with
  | '+' :: digits => parts.drop (digitsValue digits - 1)
  | '-' :: digits => parts.drop (parts.length - digitsValue digits)
  | digits => parts.drop (parts.length - digitsValue digits)

/-- Prints the first or the last lines or bytes. -/
def endsUtility (choose : {α : Type} → Bytes → List α → List α) : Utility := fun name arguments =>
  withOptions "qz" "nc" (fun o =>
    onText o.words fun text =>
      match o.value? 'c' with
      | some bytes => choose bytes text
      | none => (choose ((o.value? 'n').getD "10".toList) (wholeLines text)).flatten)
    name (spellNumber arguments)

/-- The number of words of a text. -/
def wordCount (text : Bytes) : Nat :=
  (text.foldl (fun (count, inWord) c =>
    if isSpace c then (count, false) else (if inWord then count else count + 1, true))
    (0, false)).1

/-- Counts lines, words and bytes. -/
def wcUtility : Utility := withOptions "lwcm" "" fun o =>
  let all := o.given.isEmpty
  let counts (text : Bytes) : List Nat :=
    (if all || o.has 'l' then [text.count '\n'] else [])
      ++ (if all || o.has 'w' then [wordCount text] else [])
      ++ (if all || o.has 'c' || o.has 'm' then [text.length] else [])
  .onFiles o.words fun contents =>
    let width := if (counts []).length = 1 then 1 else if o.words.isEmpty then 7
      else (contents.map fun (_, text) => (digitsIn 10 text.length).length).foldl max 1
    .ofOutput (contents.flatMap fun (name, text) =>
      List.intercalate [' '] ((counts text).map (padNumber width))
        ++ (if o.words.isEmpty then [] else ' ' :: name) ++ ['\n'])

/-- Whether a found text is a whole word. -/
def isWholeWord (found : Found) : Bool :=
  !(found.before.getLast?.map isVariableChar).getD false
    && !(found.after.head?.map isVariableChar).getD false

/-- Prints the lines that an expression is found in. -/
def grepUtility (fixed extended : Bool) : Utility :=
  withOptions "nvicoqEFGHhslxw" "em" fun o =>
    let patterns := if o.has 'e' then o.values 'e' else o.words.take 1
    let files := if o.has 'e' then o.words else o.words.drop 1
    let expressions := (patterns.flatMap (·.splitOn '\n')).mapM fun pattern =>
      if fixed || o.has 'F' then some (literalRegex pattern)
      else regexOf? (extended || o.has 'E') pattern
    match expressions with
    | none => .done (.failure "grep: Unmatched ( or \\(" 2)
    | some expressions =>
      let found (line : Bytes) : List Bytes :=
        (expressions.flatMap fun r =>
          ((r.findAll (o.has 'i') (line.length + 2) false none line).filter fun f =>
            (!o.has 'x' || f.text = line) && (!o.has 'w' || isWholeWord f)).map (·.text))
      let chosen (line : Bytes) : Bool := (!(found line).isEmpty) != o.has 'v'
      let inFile (named : Bool) (name text : Bytes) : Bytes × Bool :=
        let start : Bytes := if named then name ++ [':'] else []
        let lines := (linesOf text).zipIdx.filter fun (line, _) => chosen line
        let lines := match o.value? 'm' with
          | some most => lines.take (digitsValue most)
          | none => lines
        let shown :=
          if o.has 'q' then []
          else if o.has 'c' then start ++ digitsIn 10 lines.length ++ ['\n']
          else if o.has 'l' then if lines.isEmpty then [] else name ++ ['\n']
          else lines.flatMap fun (line, i) =>
            let start := if o.has 'n' then start ++ digitsIn 10 (i + 1) ++ [':'] else start
            if o.has 'o' then
              ((found line).filter fun text => !text.isEmpty && !o.has 'v').flatMap fun text =>
                start ++ text ++ ['\n']
            else start ++ line ++ ['\n']
        (shown, !lines.isEmpty)
      .onFiles files fun contents =>
        let named := (1 < contents.length || o.has 'H') && !o.has 'h'
        let results := contents.map fun (name, text) =>
          inFile named (if name.isEmpty then "(standard input)".toList else name) text
        ⟨results.flatMap (·.1), [], if results.any (·.2) then 0 else 1⟩

/-- The characters of a set of `tr`. -/
def translationSet : (budget : Bytes) → Bytes → Bytes
  | [], _ => []
  | _ :: budget, text =>
    match text with
    | [] => []
    | '[' :: ':' :: rest =>
      match takeNamedKind? rest with
      | some (holds, rest) =>
        ((List.range 256).map Char.ofNat).filter holds ++ translationSet budget rest
      | none => '[' :: translationSet budget (':' :: rest)
    | '\\' :: c :: rest =>
      if isOctal c then
        let (byte, rest) := takeOctal 3 (c :: rest)
        byte :: translationSet budget rest
      else (escapedChars.lookup c).getD c :: translationSet budget rest
    | c :: '-' :: d :: rest =>
      (List.range (d.toNat + 1 - c.toNat)).map (fun i => Char.ofNat (c.toNat + i))
        ++ translationSet budget rest
    | c :: rest => c :: translationSet budget rest

/-- Replaces, deletes or squeezes characters. -/
def trUtility : Utility := withOptions "dscC" "" fun o =>
  let sets := o.words.map fun word => translationSet word word
  let first := sets.headD []
  let second := (sets.drop 1).headD []
  let inverted := o.has 'c' || o.has 'C'
  let inFirst (c : Char) : Bool := first.contains c != inverted
  let replace (c : Char) : Char :=
    if !inFirst c then c
    else if inverted then second.getLast?.getD c
    else
      match first.idxOf? c with
      | some i => (second[i]?.orElse fun _ => second.getLast?).getD c
      | none => c
  onText [] fun text =>
    let changed :=
      if o.has 'd' then text.filter fun c => !inFirst c
      else if second.isEmpty then text else text.map replace
    let squeezed (c : Char) : Bool := if second.isEmpty then inFirst c else second.contains c
    if !o.has 's' then changed
    else
      (changed.foldl (fun kept c =>
        if squeezed c && kept.head? = some c then kept else c :: kept) []).reverse

/-- The numbers of a list of ranges, as a test. -/
def inRanges (ranges : Bytes) (n : Nat) : Bool :=
  (ranges.splitOn ',').any fun range =>
    match range.splitOn '-' with
    | [one] => n = digitsValue one
    | [first, last] =>
      (first.isEmpty || digitsValue first ≤ n) && (last.isEmpty || n ≤ digitsValue last)
    | _ => false

/-- Prints parts of lines. -/
def cutUtility : Utility := withOptions "s" "dfcb" fun o =>
  onLines o.words fun lines => lines.filterMap fun line =>
    match o.value? 'f' with
    | some ranges =>
      let mark := ((o.value? 'd').bind List.head?).getD '\t'
      let parts := line.splitOn mark
      if parts.length = 1 then if o.has 's' then none else some line
      else
        some (List.intercalate [mark]
          ((parts.zipIdx.filter fun (_, i) => inRanges ranges (i + 1)).map (·.1)))
    | none =>
      let ranges := ((o.value? 'c').orElse fun _ => o.value? 'b').getD []
      some ((line.zipIdx.filter fun (_, i) => inRanges ranges (i + 1)).map (·.1))

/-- Whether a text stands before another in the order of their bytes, or is the same. -/
def bytesBefore : Bytes → Bytes → Bool
  | [], _ => true
  | _ :: _, [] => false
  | a :: s, b :: t => if a = b then bytesBefore s t else a < b

/-- Sorts lines. -/
def sortUtility : Utility := withOptions "nruf" "" fun o =>
  onLines o.words fun lines =>
    let number (line : Bytes) : Int := (takeInteger line).1
    let before (a b : Bytes) : Bool :=
      if o.has 'n' then
        if number a = number b then bytesBefore a b else number a < number b
      else if o.has 'f' && a.map Char.toUpper ≠ b.map Char.toUpper then
        bytesBefore (a.map Char.toUpper) (b.map Char.toUpper)
      else bytesBefore a b
    let sorted := lines.mergeSort fun a b => if o.has 'r' then before b a else before a b
    let same (a b : Bytes) : Bool := if o.has 'n' then number a = number b else a = b
    if !o.has 'u' then sorted
    else
      (sorted.foldl (fun kept line =>
        if (kept.head?.map (same line)).getD false then kept else line :: kept) []).reverse

/-- Prints each of several equal lines once. -/
def uniqUtility : Utility := withOptions "cdui" "" fun o =>
  onLines o.words fun lines =>
    let same (a b : Bytes) : Bool :=
      if o.has 'i' then a.map Char.toLower = b.map Char.toLower else a = b
    let runs := lines.foldl (fun runs line =>
      match runs with
      | (n, first) :: others =>
        if same first line then (n + 1, first) :: others else (1, line) :: (n, first) :: others
      | [] => [(1, line)]) []
    (runs.reverse.filter fun (n, _) =>
      (!o.has 'd' || 1 < n) && (!o.has 'u' || n = 1)).map fun (n, line) =>
        if o.has 'c' then padNumber 7 n ++ ' ' :: line else line

/-- The integers from one to another, as many as a budget allows. -/
def countTo (last step : Int) : (budget : Nat) → Int → List Int
  | 0, _ => []
  | budget + 1, n =>
    if (0 < step && last < n) || (step < 0 && n < last) then []
    else n :: countTo last step budget (n + step)

/-- How many lines a tool prints at most. -/
def lineLimit : Nat := 200000

/-- Prints numbers. -/
def seqUtility : Utility := fun name arguments =>
  let (separator, words) :=
    match arguments with
    | ['-', 's'] :: separator :: rest => (separator, rest)
    | ('-' :: 's' :: separator) :: rest => (separator, rest)
    | _ => (['\n'], arguments)
  let (wide, words) :=
    match words with
    | ['-', 'w'] :: rest => (true, rest)
    | _ => (false, words)
  let bounds : Option (Int × Int × Int) :=
    match words.map integerWord? with
    | [some last] => some (1, 1, last)
    | [some first, some last] => some (first, 1, last)
    | [some first, some step, some last] => some (first, step, last)
    | _ => none
  match bounds with
  | none => .done (.failure s!"{name}: invalid floating point argument" 1)
  | some (first, step, last) =>
    if step = 0 then .done (.failure s!"{name}: invalid Zero increment value" 1)
    else
      let numbers := (countTo last step lineLimit first).map fun n => bytesOf (toString n)
      let width := if wide then (numbers.map List.length).foldl max 0 else 0
      let shown := numbers.map fun n => List.replicate (width - n.length) '0' ++ n
      .done (.ofOutput (if shown.isEmpty then [] else List.intercalate separator shown ++ ['\n']))
where
  /-- The integer that a word is. -/
  integerWord? (word : Bytes) : Option Int :=
    let (digits, sign) := match word with
      | '-' :: rest => (rest, -1)
      | _ => (word, 1)
    if digits.isEmpty || !digits.all Char.isDigit then none else some (sign * digitsValue digits)

/-- Prints numbered lines. -/
def nlUtility : Utility := withOptions "" "bwsv" fun o =>
  let all := o.value? 'b' = some ['a']
  onLines o.words fun lines =>
    (lines.foldl (fun (number, shown) line =>
      if all || !line.isEmpty then
        (number + 1, (padNumber 6 number ++ '\t' :: line) :: shown)
      else (number, "       ".toList :: shown)) (1, [])).2.reverse

/-- The last name of a path. -/
def lastName (path : Bytes) : Bytes :=
  match (path.splitOn '/').filter (!·.isEmpty) with
  | [] => if path.isEmpty then [] else ['/']
  | names => names.getLastD []

/-- Prints the last name of a path, without an ending. -/
def basenameUtility : Utility := fun _ arguments =>
  let name := lastName (arguments.headD [])
  let ending := (arguments.drop 1).headD []
  let shown :=
    if name ≠ ending && ending.isSuffixOf name then name.take (name.length - ending.length)
    else name
  .done (.ofOutput (shown ++ ['\n']))

/-- Prints a path without its last name. -/
def dirnameUtility : Utility := fun _ arguments =>
  let path := arguments.headD []
  let names := (path.splitOn '/').filter (!·.isEmpty)
  let start : Bytes := if path.head? = some '/' then ['/'] else []
  let inside := start ++ List.intercalate ['/'] names.dropLast
  .done (.ofOutput ((if inside.isEmpty then ['.'] else inside) ++ ['\n']))

/-- Prints the same line as long as somebody reads it. -/
def yesUtility : Utility := fun _ arguments =>
  let line := if arguments.isEmpty then ['y'] else List.intercalate [' '] arguments
  .done (.ofOutput (unlines (List.replicate (65536 / (line.length + 1)) line)))

/-- A tool that prints nothing and ends with a status. -/
def silentUtility (status : Nat) : Utility := fun _ _ => .done ⟨[], [], status⟩

/-- What `echo` prints as a program, which knows escapes only if they are asked for. -/
def echoUtility : Utility := fun _ arguments =>
  let isOption (word : Bytes) : Bool :=
    match word with
    | '-' :: letters@(_ :: _) => letters.all "neE".toList.contains
    | _ => false
  let letters := (arguments.takeWhile isOption).flatten
  let text := List.intercalate [' '] (arguments.dropWhile isOption)
  let escapes := (letters.filter fun c => c = 'e' || c = 'E').getLast? = some 'e'
  let (shown, ended) := if escapes then unescapeWord text text else (text, false)
  .done (.ofOutput (if ended || letters.contains 'n' then shown else shown ++ ['\n']))

/-- What `printf` prints. -/
def printfTask (name : String) (arguments : List Bytes) : Task :=
  match if arguments.head? = some ['-', '-'] then arguments.tail else arguments with
  | [] => .done (.failure s!"{name}: usage: printf format [arg ...]" 2)
  | format :: words =>
    let p := printFormat format words
    let status := if p.invalid then 2 else if p.complaints.isEmpty then 0 else 1
    .done ⟨p.text, p.complaints.map fun c => name ++ ": " ++ c, status⟩

/-- The value of an expression of words. -/
def exprTask (name : String) (arguments : List Bytes) : Task :=
  let result (text : Bytes) : Task :=
    .done ⟨text ++ ['\n'], [], if text.isEmpty || text = ['0'] then 1 else 0⟩
  let truth (p : Bool) : Task := result (if p then ['1'] else ['0'])
  let number (word : Bytes) : Int := (takeInteger word).1
  match arguments with
  | [word] => result word
  | [a, sign, b] =>
    let isNumber (word : Bytes) : Bool := (seqUtility.integerWord? word).isSome
    let compare : Ordering :=
      if isNumber a && isNumber b then compareOfLessAndEq (number a) (number b)
      else if a = b then .eq else if bytesBefore a b then .lt else .gt
    match textOf sign with
    | "=" => truth (compare == .eq)
    | "!=" => truth (compare != .eq)
    | "<" => truth (compare == .lt)
    | "<=" => truth (compare != .gt)
    | ">" => truth (compare == .gt)
    | ">=" => truth (compare != .lt)
    | "|" => result (if a.isEmpty || a = ['0'] then b else a)
    | "&" => result (if a.isEmpty || a = ['0'] || b.isEmpty || b = ['0'] then ['0'] else a)
    | ":" =>
      match (regexOf? false b).bind fun r => r.find? false none a with
      | some found =>
        if !found.before.isEmpty then result ['0']
        else
          match found.groups.lookup 1 with
          | some text => result text
          | none => result (digitsIn 10 found.text.length)
      | none => result ['0']
    | sign =>
      if !isNumber a || !isNumber b then .done (.failure s!"{name}: non-integer argument" 2)
      else
        match sign with
        | "+" => result (bytesOf (toString (number a + number b)))
        | "-" => result (bytesOf (toString (number a - number b)))
        | "*" => result (bytesOf (toString (number a * number b)))
        | "/" => if number b = 0 then .done (.failure s!"{name}: division by zero" 2)
          else result (bytesOf (toString ((number a).tdiv (number b))))
        | "%" => if number b = 0 then .done (.failure s!"{name}: division by zero" 2)
          else result (bytesOf (toString ((number a).tmod (number b))))
        | _ => .done (.failure s!"{name}: syntax error" 2)
  | [keyword, word] =>
    if textOf keyword = "length" then result (digitsIn 10 word.length)
    else .done (.failure s!"{name}: syntax error" 2)
  | _ => .done (.failure s!"{name}: syntax error" 2)

end NodeScript.Shell
