import NodeScript.Proofs.Typing.Spelling

/-!
What the reader of types says of a text that is none. A part of a text is read without a look at more
than the first character behind it, so what is said of a text holds of every text that is the same up
to that character; and whatever was read before can be completed. The character that is reported is
therefore the first one behind which no spelling goes on.
-/

namespace NodeScript

/-- How a reader of parts comes to its answer. It has read a part, or something that can be completed
to a part, and it answers alike whatever stands behind the first character that it has left. -/
inductive Answers {α : Type} (read : List Char → Except (List Char) (α × List Char))
    (spells : α → List Char → Prop) (text : List Char) : Prop
  | ok {a body rest} : text = body ++ rest → spells a body →
      (∀ rest', rest'.head? = rest.head? → read (body ++ rest') = .ok (a, rest')) →
      Answers read spells text
  | error {before stuck a completion} : text = before ++ stuck → spells a (before ++ completion) →
      (∀ stuck', stuck'.head? = stuck.head? → read (before ++ stuck') = .error stuck') →
      Answers read spells text

theorem head?_append_congr {first rest rest' : List Char} (head : rest'.head? = rest.head?) :
    (first ++ rest').head? = (first ++ rest).head? := by
  rw [List.head?_append, List.head?_append, head]

theorem other_head? {text rest : List Char} {c : Char} (other : ¬ ∃ more, text = c :: more)
    (head : rest.head? = text.head?) : rest.head? ≠ some c := by
  rw [head, ne_eq, List.head?_eq_some_iff]
  exact other

namespace Answers

variable {α β : Type} {text : List Char}

/-- A reader that goes on like another one behind what it has read. -/
theorem after {read next : List Char → Except (List Char) (α × List Char)}
    {spells spells' : α → List Char → Prop} {start : List Char}
    (run : ∀ text', text'.head? = text.head? → read (start ++ text') = next text')
    (join : ∀ {a body}, spells' a body → spells a (start ++ body))
    (answers : Answers next spells' text) : Answers read spells (start ++ text) := by
  cases answers with
  | @ok a body rest split spelled again =>
    refine .ok (by rw [split, ← List.append_assoc]) (join spelled) fun rest' head => ?_
    have same : (body ++ rest').head? = text.head? := split ▸ head?_append_congr head
    rw [List.append_assoc, run _ same, again rest' head]
  | @error before stuck a completion split spelled again =>
    have completed : spells a (start ++ before ++ completion) := by
      rw [List.append_assoc]
      exact join spelled
    refine .error (by rw [split, ← List.append_assoc]) completed fun stuck' head => ?_
    have same : (before ++ stuck').head? = text.head? := split ▸ head?_append_congr head
    rw [List.append_assoc, run _ same, again stuck' head]

/-- A reader that reads one part after the other, where a second part can always follow. -/
theorem bind {read : List Char → Except (List Char) (β × List Char)}
    {first : List Char → Except (List Char) (α × List Char)}
    {next : α → List Char → Except (List Char) (β × List Char)}
    {spells : β → List Char → Prop} {spells₁ : α → List Char → Prop}
    {spells₂ : α → β → List Char → Prop}
    (run : ∀ text, read text = (first text).bind fun (a, rest) => next a rest)
    (join : ∀ {a b body body'}, spells₁ a body → spells₂ a b body' → spells b (body ++ body'))
    (finish : ∀ a, ∃ b body, spells₂ a b body) (one : Answers first spells₁ text)
    (two : ∀ a rest, first text = .ok (a, rest) → Answers (next a) (spells₂ a) rest) :
    Answers read spells text := by
  cases one with
  | @ok a body rest split spelled again =>
    have readFirst : first text = .ok (a, rest) := by rw [split, again rest rfl]
    have goesOn : ∀ text', text'.head? = rest.head? → read (body ++ text') = next a text' := by
      intro text' head
      rw [run, again text' head]
      rfl
    rw [split]
    exact (two a rest readFirst).after goesOn (join spelled)
  | @error before stuck a completion split spelled again =>
    obtain ⟨b, body, follows⟩ := finish a
    have completed : spells b (before ++ (completion ++ body)) := by
      rw [← List.append_assoc]
      exact join spelled follows
    refine .error split completed fun stuck' head => ?_
    rw [run, again stuck' head]
    rfl

end Answers

/-! ### Brackets -/

theorem readBrackets_stop {rest : List Char} (solid : skipBlank rest = rest)
    (other : rest.head? ≠ some '[') (element : TypeExpr) :
    readOf (readBrackets element rest) = .ok (element, rest) := by
  rw [readOf_readBrackets, solid]
  split
  · exact absurd rfl other
  · rfl

theorem readBrackets_unclosed {before between rest : List Char} (blank : AllBlank before)
    (blank' : AllBlank between) (solid : skipBlank rest = rest) (other : rest.head? ≠ some ']')
    (element : TypeExpr) :
    readOf (readBrackets element (before ++ '[' :: between ++ rest)) = .error rest := by
  have opening : skipBlank (before ++ '[' :: between ++ rest) = '[' :: (between ++ rest) := by
    rw [List.append_assoc, blank.skipBlank_append]
    rfl
  have closing : skipBlank (between ++ rest) = rest := by rw [blank'.skipBlank_append, solid]
  rw [readOf_readBrackets, opening]
  simp only [closing]
  split
  · exact absurd rfl other
  · rfl

/-- The text behind an element type that makes it another type, an array of arrays perhaps. -/
def TypeExpr.Extends (element t : TypeExpr) (text : List Char) : Prop :=
  ∀ start, element.SpelledBy start → t.Spells (start ++ text)

theorem TypeExpr.extends_blank (element : TypeExpr) {text : List Char} (blank : AllBlank text) :
    element.Extends element text :=
  fun start spelled => ⟨start, text, spelled, blank, rfl⟩

theorem TypeExpr.Extends.array {element t : TypeExpr} {before between text : List Char}
    (blank : AllBlank before) (blank' : AllBlank between)
    (extended : (TypeExpr.array element).Extends t text) :
    element.Extends t (before ++ '[' :: between ++ [']'] ++ text) := by
  intro start spelled
  have whole := extended _ (.array spelled blank blank')
  simpa using whole

theorem readBrackets_answers (element : TypeExpr) (text : List Char) :
    Answers (fun text => readOf (readBrackets element text)) element.Extends text := by
  obtain ⟨before, blank, split⟩ := exists_blanks text
  by_cases opened : ∃ more, skipBlank text = '[' :: more
  · obtain ⟨more, opened⟩ := opened
    obtain ⟨between, blank', split'⟩ := exists_blanks more
    by_cases closed : ∃ rest, skipBlank more = ']' :: rest
    · obtain ⟨rest, closed⟩ := closed
      have shorter := readBrackets_shorter opened closed
      have whole : text = before ++ '[' :: between ++ [']'] ++ rest := by
        rw [split, opened, split', closed]
        simp
      rw [whole]
      refine (readBrackets_answers (.array element) rest).after (fun text' _ => ?_)
        (TypeExpr.Extends.array blank blank')
      rw [List.append_assoc]
      exact readBrackets_spaced blank blank' element text'
    · have whole : text = before ++ '[' :: between ++ skipBlank more := by
        rw [split, opened, List.append_assoc, List.cons_append, ← split']
      have completed : element.Extends (.array element) (before ++ '[' :: between ++ [']']) := by
        have blanks := (TypeExpr.array element).extends_blank allBlank_nil
        simpa using blanks.array blank blank'
      refine .error whole completed fun stuck' head => ?_
      exact readBrackets_unclosed blank blank' (skipBlank_of_head? head) (other_head? closed head) element
  · refine .ok split (element.extends_blank blank) fun rest' head => ?_
    rw [blank.readBrackets_append]
    exact readBrackets_stop (skipBlank_of_head? head) (other_head? opened head) element
termination_by text.length

/-! ### Types and arguments -/

theorem EndsName.congr {text text' : List Char} (ends : EndsName text)
    (head : text'.head? = text.head?) : EndsName text' := by
  unfold EndsName
  rwa [head]

theorem readType_unnamed {before rest : List Char} (blank : AllBlank before)
    (solid : skipBlank rest = rest) (ends : EndsName rest) :
    readOf (readType (before ++ rest)) = .error rest := by
  have start : skipBlank (before ++ rest) = rest := by rw [blank.skipBlank_append, solid]
  rw [readOf_readType, start]
  cases rest with
  | nil => rfl
  | cons c more =>
    have other : ¬ isTypeNameChar c = true := by simp [ends c rfl]
    rw [List.takeWhile_cons_of_neg other, List.dropWhile_cons_of_neg other]
    rfl

/-- The text of arguments with the bracket that closes them. -/
def ClosesArgs (args : List TypeExpr) (text : List Char) : Prop :=
  ∃ inside, TypeExpr.ArgsSpelledBy args inside ∧ text = inside ++ ['>']

/-- The text behind an argument that makes it the first of several, the closing bracket included. -/
def FollowsArg (arg : TypeExpr) (args : List TypeExpr) (text : List Char) : Prop :=
  ∀ start, arg.Spells start → ClosesArgs args (start ++ text)

theorem followsArg_last (arg : TypeExpr) {blanks : List Char} (blank : AllBlank blanks) :
    FollowsArg arg [arg] (blanks ++ ['>']) := by
  rintro _ ⟨body, after, spelled, blank', rfl⟩
  exact ⟨body ++ (after ++ blanks), .last spelled (blank'.append blank), by simp⟩

theorem followsArg_more (arg : TypeExpr) {blanks : List Char} (blank : AllBlank blanks)
    {others : List TypeExpr} {text : List Char} (closes : ClosesArgs others text) :
    FollowsArg arg (arg :: others) (blanks ++ [','] ++ text) := by
  obtain ⟨inside, spelled', rfl⟩ := closes
  rintro _ ⟨body, after, spelled, blank', rfl⟩
  have whole := TypeExpr.ArgsSpelledBy.more spelled (blank'.append blank) spelled'
  exact ⟨_, whole, by simp⟩

/-- What is read behind an argument. -/
def readBehindArg (arg : TypeExpr) (text : List Char) :
    Except (List Char) (List TypeExpr × List Char) :=
  match skipBlank text with
  | ',' :: more => (readOf (readArgs more)).map fun (args, rest) => (arg :: args, rest)
  | '>' :: rest => .ok ([arg], rest)
  | stuck => .error stuck

theorem readBehindArg_append {blanks : List Char} (blank : AllBlank blanks) (arg : TypeExpr)
    (text : List Char) : readBehindArg arg (blanks ++ text) = readBehindArg arg text := by
  unfold readBehindArg
  rw [blank.skipBlank_append]

theorem readBehindArg_stuck {text : List Char} (solid : skipBlank text = text)
    (comma : text.head? ≠ some ',') (angle : text.head? ≠ some '>') (arg : TypeExpr) :
    readBehindArg arg text = .error text := by
  unfold readBehindArg
  rw [solid]
  split
  · exact absurd rfl comma
  · exact absurd rfl angle
  · rfl

theorem Answers.cons {text : List Char} (arg : TypeExpr)
    (answers : Answers (fun text => readOf (readArgs text)) ClosesArgs text) :
    Answers (fun text => (readOf (readArgs text)).map fun (args, rest) => (arg :: args, rest))
      (fun args body => ∃ others, args = arg :: others ∧ ClosesArgs others body) text := by
  cases answers with
  | ok split closes again =>
    refine .ok split ⟨_, rfl, closes⟩ fun rest' head => ?_
    dsimp only at again ⊢
    rw [again rest' head]
    rfl
  | error split closes again =>
    refine .error split ⟨_, rfl, closes⟩ fun stuck' head => ?_
    dsimp only at again ⊢
    rw [again stuck' head]
    rfl

theorem readBehindArg_answers (arg : TypeExpr) (text : List Char)
    (later : ∀ more : List Char, more.length < text.length →
      Answers (fun text => readOf (readArgs text)) ClosesArgs more) :
    Answers (readBehindArg arg) (FollowsArg arg) text := by
  obtain ⟨blanks, blank, split⟩ := exists_blanks text
  have within := length_skipBlank_le text
  by_cases comma : ∃ more, skipBlank text = ',' :: more
  · obtain ⟨more, comma⟩ := comma
    rw [comma, List.length_cons] at within
    have whole : text = blanks ++ [','] ++ more := by
      rw [split, comma]
      simp
    rw [whole]
    refine ((later more within).cons arg).after (fun text' _ => ?_) ?_
    · rw [List.append_assoc, readBehindArg_append blank]
      rfl
    · rintro _ body ⟨others, rfl, closes⟩
      exact followsArg_more arg blank closes
  by_cases angle : ∃ rest, skipBlank text = '>' :: rest
  · obtain ⟨rest, angle⟩ := angle
    have whole : text = blanks ++ ['>'] ++ rest := by
      rw [split, angle]
      simp
    refine .ok whole (followsArg_last arg blank) fun rest' _ => ?_
    rw [List.append_assoc, readBehindArg_append blank]
    rfl
  · refine .error split (followsArg_last arg blank) fun stuck' head => ?_
    rw [readBehindArg_append blank]
    exact readBehindArg_stuck (skipBlank_of_head? head) (other_head? comma head)
      (other_head? angle head) arg

/-- The text behind the opening bracket of a name that makes it a type. -/
def Applies (name : String) (t : TypeExpr) (text : List Char) : Prop :=
  ∃ args inside behind, ClosesArgs args inside ∧ (TypeExpr.named name args).Extends t behind ∧
    text = inside ++ behind

theorem Applies.spells {name : String} (named : IsTypeName name) {t : TypeExpr}
    {before after text : List Char} (blank : AllBlank before) (blank' : AllBlank after)
    (applies : Applies name t text) :
    t.Spells (before ++ name.toList ++ after ++ ['<'] ++ text) := by
  obtain ⟨args, _, behind, ⟨inside, spelled, rfl⟩, extended, rfl⟩ := applies
  have whole := extended _ (.applied blank named blank' spelled)
  simpa using whole

/-- Every text starts with white space and letters of a name, both possibly none. -/
theorem exists_letters (text : List Char) :
    ∃ before letters rest, AllBlank before ∧ (∀ c ∈ letters, isTypeNameChar c = true) ∧
      EndsName rest ∧ skipBlank text = letters ++ rest ∧ text = before ++ letters ++ rest := by
  obtain ⟨before, blank, split⟩ := exists_blanks text
  have parts : skipBlank text = (skipBlank text).takeWhile isTypeNameChar ++
      (skipBlank text).dropWhile isTypeNameChar := List.takeWhile_append_dropWhile.symm
  refine ⟨before, _, _, blank, List.all_eq_true.mp List.all_takeWhile, ?_, parts, ?_⟩
  · intro c first
    have other := List.head?_dropWhile_not isTypeNameChar (skipBlank text)
    rw [Option.mem_def.mp first] at other
    simpa using other
  · rw [List.append_assoc, ← parts]
    exact split

mutual

theorem readType_answers (text : List Char) :
    Answers (fun text => readOf (readType text)) TypeExpr.Spells text := by
  obtain ⟨before, letters, afterName, blank, all, ends, parts, split⟩ := exists_letters text
  by_cases empty : letters = []
  · have completed : (TypeExpr.plain "T").Spells (before ++ ['T']) :=
      ⟨_, [], .plain blank (by decide) allBlank_nil, allBlank_nil, by simp⟩
    rw [empty, List.nil_append] at parts
    rw [empty, List.append_nil] at split
    refine .error split completed fun stuck' head => ?_
    exact readType_unnamed blank (skipBlank_of_head? (parts ▸ head)) (ends.congr head)
  have named : IsTypeName (String.ofList letters) := by
    rw [IsTypeName, String.toList_ofList]
    exact ⟨empty, all⟩
  have spelled : (String.ofList letters).toList = letters := String.toList_ofList
  generalize String.ofList letters = name at named spelled
  obtain ⟨after, blank', split'⟩ := exists_blanks afterName
  by_cases opened : ∃ inside, skipBlank afterName = '<' :: inside
  · obtain ⟨inside, opened⟩ := opened
    have whole : text = before ++ name.toList ++ after ++ ['<'] ++ inside := by
      rw [split, spelled, split', opened]
      simp
    have shorter : inside.length < text.length := by
      rw [whole]
      simp only [List.length_append, List.length_singleton]
      omega
    have applied : Answers (fun inside => (readOf (readArgs inside)).bind fun (args, rest) =>
        readOf (readBrackets (.named name args) rest)) (Applies name) inside := by
      refine Answers.bind (fun _ => rfl) ?_ ?_ (readArgs_answers inside)
        fun args rest _ => readBrackets_answers (.named name args) rest
      · exact fun closes extended => ⟨_, _, _, closes, extended, rfl⟩
      · exact fun args => ⟨_, [], TypeExpr.extends_blank _ allBlank_nil⟩
    rw [whole]
    refine applied.after (fun text' _ => ?_) (Applies.spells named blank blank')
    rw [List.append_assoc]
    exact readType_angle blank named blank' text'
  · have whole : text = before ++ name.toList ++ after ++ skipBlank afterName := by
      rw [split, spelled, List.append_assoc _ after, ← split']
    rw [whole]
    refine (readBrackets_answers (.plain name) _).after (fun text' head => ?_) ?_
    · have ends' : EndsName (after ++ text') :=
        ends.congr (by rw [split']; exact head?_append_congr head)
      have other : (skipBlank (after ++ text')).head? ≠ some '<' := by
        rw [blank'.skipBlank_append, skipBlank_of_head? head]
        exact other_head? opened head
      have plain := readType_plain blank named ends' other
      rw [← List.append_assoc, blank'.readBrackets_append] at plain
      exact plain
    · exact fun extended => extended _ (.plain blank named blank')
termination_by 2 * text.length

theorem readArgs_answers (text : List Char) :
    Answers (fun text => readOf (readArgs text)) ClosesArgs text := by
  have run : ∀ text, readOf (readArgs text) =
      (readOf (readType text)).bind fun (arg, rest) => readBehindArg arg rest := readOf_readArgs
  have behind : ∀ arg rest, readOf (readType text) = .ok (arg, rest) →
      Answers (readBehindArg arg) (FollowsArg arg) rest := by
    intro arg rest read
    obtain ⟨shorter, -⟩ := readOf_eq_ok_iff.mp read
    refine readBehindArg_answers arg rest fun more within => ?_
    have smaller : more.length < text.length := within.trans shorter
    exact readArgs_answers more
  exact Answers.bind run (fun spells follows => follows _ spells)
    (fun arg => ⟨[arg], ['>'], followsArg_last arg allBlank_nil⟩) (readType_answers text) behind
termination_by 2 * text.length + 1

end

/-! ### Whole texts -/

theorem byteLength_eq_utf8ByteSize (text : List Char) :
    byteLength text = (String.ofList text).utf8ByteSize := by
  induction text with
  | nil => rfl
  | cons c rest ih => simp [byteLength, ih]

theorem byteLength_append (text rest : List Char) :
    byteLength (text ++ rest) = byteLength text + byteLength rest := by
  rw [byteLength_eq_utf8ByteSize, byteLength_eq_utf8ByteSize, byteLength_eq_utf8ByteSize,
    String.ofList_append, String.utf8ByteSize_append]

theorem CanBecomeType.of_append {text rest : List Char} (whole : CanBecomeType (text ++ rest)) :
    CanBecomeType text := by
  obtain ⟨t, completion, spelled⟩ := whole
  exact ⟨t, rest ++ completion, by rwa [← List.append_assoc]⟩

theorem TypeExpr.Spells.canBecomeType {t : TypeExpr} {text : List Char} (spelled : t.Spells text) :
    CanBecomeType text :=
  ⟨t, [], by rwa [List.append_nil]⟩

/-- Of the texts that a text starts with, only one can become a type while it cannot with the next
character. -/
theorem eq_of_canBecomeType {text text' more more' : List Char} {c c' : Char}
    (same : text ++ c :: more = text' ++ c' :: more') (can : CanBecomeType text)
    (cannot : ¬ CanBecomeType (text ++ [c])) (can' : CanBecomeType text')
    (cannot' : ¬ CanBecomeType (text' ++ [c'])) : text = text' ∧ c = c' := by
  rcases List.append_eq_append_iff.mp same with ⟨between, rfl, split⟩ | ⟨between, rfl, split⟩
  · cases between with
    | nil => exact ⟨(List.append_nil _).symm, (List.cons.inj split).1⟩
    | cons d rest =>
      obtain ⟨rfl, -⟩ := List.cons.inj split
      rw [List.append_cons] at can'
      exact absurd can'.of_append cannot
  · cases between with
    | nil => exact ⟨List.append_nil _, (List.cons.inj split).1.symm⟩
    | cons d rest =>
      obtain ⟨rfl, -⟩ := List.cons.inj split
      rw [List.append_cons] at can
      exact absurd can.of_append cannot'

/-- Nothing but white space may stand behind a type. -/
def readEnd (t : TypeExpr) (text : List Char) : Except (List Char) (TypeExpr × List Char) :=
  if skipBlank text = [] then .ok (t, []) else .error (skipBlank text)

/-- Reads a type to the end of the text. -/
def readWhole (text : List Char) : Except (List Char) (TypeExpr × List Char) :=
  (readOf (readType text)).bind fun (t, rest) => readEnd t rest

theorem readEnd_answers (t : TypeExpr) (text : List Char) :
    Answers (readEnd t) (fun t' body => t' = t ∧ AllBlank body) text := by
  obtain ⟨blanks, blank, split⟩ := exists_blanks text
  by_cases ends : skipBlank text = []
  · rw [ends] at split
    refine .ok split ⟨rfl, blank⟩ fun rest' head => ?_
    obtain rfl : rest' = [] := List.head?_eq_none_iff.mp head
    exact if_pos (blank.skipBlank_append [])
  · refine .error split ⟨rfl, blank.append allBlank_nil⟩ fun stuck' head => ?_
    have left : skipBlank (blanks ++ stuck') = stuck' := by
      rw [blank.skipBlank_append, skipBlank_of_head? head]
    have filled : stuck' ≠ [] := by
      rintro rfl
      exact ends (List.head?_eq_none_iff.mp head.symm)
    rw [readEnd, left, if_neg filled]

namespace TypeExpr

theorem Spells.append {t : TypeExpr} {text blanks : List Char} (spelled : t.Spells text)
    (blank : AllBlank blanks) : t.Spells (text ++ blanks) := by
  obtain ⟨body, after, spelled, blank', rfl⟩ := spelled
  exact ⟨body, after ++ blanks, spelled, blank'.append blank, List.append_assoc _ _ _⟩

theorem readWhole_answers (text : List Char) : Answers readWhole Spells text := by
  refine Answers.bind (fun _ => rfl) ?_ ?_ (readType_answers text) fun t rest _ =>
    readEnd_answers t rest
  · rintro t _ body blanks spelled ⟨rfl, blank⟩
    exact spelled.append blank
  · exact fun t => ⟨t, [], rfl, allBlank_nil⟩

theorem readWhole_of_spells {t : TypeExpr} {text : List Char} (spelled : t.Spells text) :
    readWhole text = .ok (t, []) := by
  obtain ⟨body, after, spelled, blank, rfl⟩ := spelled
  have nothing : skipBlank after = [] := by
    rw [← List.append_nil after, blank.skipBlank_append]
    rfl
  have ends : GoesOn [',', '>', '['] (skipBlank after) := by simp [nothing, GoesOn]
  have behind : readOf (readBrackets t after) = .ok (t, []) := by
    rw [← readBrackets_skipBlank, nothing]
    exact readBrackets_end t (by simp [GoesOn])
  rw [readWhole, spelled.read ends, behind]
  rfl

theorem spells_of_readWhole {t : TypeExpr} {text rest : List Char}
    (read : readWhole text = .ok (t, rest)) : t.Spells text := by
  obtain ⟨⟨t', behind⟩, found, ends⟩ := bind_eq_ok read
  dsimp only [readEnd] at ends
  split at ends
  · rename_i nothing
    obtain rfl : t' = t := congrArg Prod.fst (Except.ok.inj ends)
    cases readType_answers text with
    | error split _ again =>
      rw [split, again _ rfl] at found
      exact nomatch found
    | @ok a body behind' split spelled again =>
      rw [split, again _ rfl] at found
      obtain ⟨rfl, rfl⟩ := Prod.mk.inj (Except.ok.inj found)
      exact split ▸ spelled.append (allBlank_of_skipBlank_eq_nil nothing)
  · exact nomatch ends

/-- Where the reader is stuck, what it has read can still become a type, and it cannot together with
the next character. -/
theorem readWhole_stuck {text stuck : List Char} (failed : readWhole text = .error stuck) :
    ∃ before, text = before ++ stuck ∧ CanBecomeType before ∧
      ∀ c more, stuck = c :: more → ¬ CanBecomeType (before ++ [c]) := by
  cases readWhole_answers text with
  | ok split _ again =>
    rw [split, again _ rfl] at failed
    exact nomatch failed
  | @error before stuck' a completion split spelled again =>
    obtain rfl : stuck' = stuck := by
      rw [split, again _ rfl] at failed
      exact Except.error.inj failed
    refine ⟨before, split, ⟨a, completion, spelled⟩, ?_⟩
    rintro c more rfl ⟨t, completion', spelled'⟩
    have accepted := readWhole_of_spells spelled'
    rw [List.append_assoc, again ([c] ++ completion') rfl] at accepted
    exact nomatch accepted

theorem parse_eq_readWhole (input : String) :
    parse input =
      match readWhole input.toList with
      | .ok (t, _) => .ok t
      | .error stuck => .error (.stuckAt input stuck) := by
  rw [parse_eq, readWhole]
  cases readOf (readType input.toList) with
  | error stuck => rfl
  | ok found =>
    obtain ⟨t, rest⟩ := found
    simp only [Except.bind, readEnd]
    cases skipBlank rest with
    | nil => rfl
    | cons c more => rfl

theorem parse_eq_ok_iff {input : String} {t : TypeExpr} :
    parse input = .ok t ↔ t.Spells input.toList := by
  rw [parse_eq_readWhole]
  constructor
  · intro parsed
    split at parsed
    · rename_i read
      exact Except.ok.inj parsed ▸ spells_of_readWhole read
    · exact nomatch parsed
  · intro spelled
    rw [readWhole_of_spells spelled]

/-- The fault that is reported for a text tells how much of it can become a type. -/
theorem fault_of_parse {input : String} {fault : TypeTextError}
    (failed : parse input = .error fault) :
    fault = .unexpectedEnd input ∧ CanBecomeType input.toList ∨
      ∃ before found after, input.toList = before ++ found :: after ∧
        fault = .unexpected input found (String.ofList before).utf8ByteSize ∧
        CanBecomeType before ∧ ¬ CanBecomeType (before ++ [found]) := by
  rw [parse_eq_readWhole] at failed
  split at failed
  · exact nomatch failed
  rename_i stuck read
  obtain rfl := Except.error.inj failed
  obtain ⟨before, split, can, cannot⟩ := readWhole_stuck read
  cases stuck with
  | nil =>
    rw [List.append_nil] at split
    exact .inl ⟨rfl, split ▸ can⟩
  | cons found after =>
    refine .inr ⟨before, found, after, split, ?_, can, cannot found after rfl⟩
    have position : byteLength input.toList - byteLength (found :: after) = byteLength before := by
      rw [split, byteLength_append, Nat.add_sub_cancel]
    rw [TypeTextError.stuckAt, position, byteLength_eq_utf8ByteSize]

/-- A text is read as a type exactly if it is a spelling of the type. A character is reported exactly
if it is the first one with which the text can no longer become a type, together with the bytes that
stand in front of it. The end of the text is reported exactly if the text is no type, but can become
one. -/
theorem parse_reports (input : String) :
    (∀ t, parse input = .ok t ↔ t.Spells input.toList) ∧
    (∀ text found position, parse input = .error (.unexpected text found position) ↔
      text = input ∧ ∃ before after, input.toList = before ++ found :: after ∧
        position = (String.ofList before).utf8ByteSize ∧
        CanBecomeType before ∧ ¬ CanBecomeType (before ++ [found])) ∧
    ∀ text, parse input = .error (.unexpectedEnd text) ↔
      text = input ∧ (¬ ∃ t : TypeExpr, t.Spells input.toList) ∧ CanBecomeType input.toList := by
  refine ⟨fun t => parse_eq_ok_iff, fun text found position => ⟨fun failed => ?_, ?_⟩,
    fun text => ⟨fun failed => ?_, ?_⟩⟩
  · rcases fault_of_parse failed with ⟨same, -⟩ | ⟨before, found', after, split, same, can, cannot⟩
    · exact nomatch same
    · obtain ⟨rfl, rfl, rfl⟩ := TypeTextError.unexpected.inj same
      exact ⟨rfl, before, after, split, rfl, can, cannot⟩
  · rintro ⟨rfl, before, after, split, rfl, can, cannot⟩
    cases result : parse text with
    | ok t =>
      have spelled := parse_eq_ok_iff.mp result
      rw [split, List.append_cons] at spelled
      exact absurd spelled.canBecomeType.of_append cannot
    | error fault =>
      rcases fault_of_parse result with ⟨-, whole⟩ | ⟨before', found', after', split', rfl, can', cannot'⟩
      · rw [split, List.append_cons] at whole
        exact absurd whole.of_append cannot
      · obtain ⟨rfl, rfl⟩ := eq_of_canBecomeType (split.symm.trans split') can cannot can' cannot'
        rfl
  · rcases fault_of_parse failed with ⟨same, can⟩ | ⟨before, found, after, -, same, -⟩
    · obtain rfl := TypeTextError.unexpectedEnd.inj same
      refine ⟨rfl, ?_, can⟩
      rintro ⟨t, spelled⟩
      rw [parse_eq_ok_iff.mpr spelled] at failed
      exact nomatch failed
    · exact nomatch same
  · rintro ⟨rfl, none, can⟩
    cases result : parse text with
    | ok t => exact absurd ⟨t, parse_eq_ok_iff.mp result⟩ none
    | error fault =>
      rcases fault_of_parse result with ⟨rfl, -⟩ | ⟨before, found, after, split, -, -, cannot⟩
      · rfl
      · rw [split, List.append_cons] at can
        exact absurd can.of_append cannot

end TypeExpr

end NodeScript
