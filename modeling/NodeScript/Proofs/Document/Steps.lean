import NodeScript.Document.Tree
import NodeScript.Document.Reader
import NodeScript.Proofs.Numeric.Numerals

/-!
Steps over written text. What a step takes of a text is told together with what it leaves, so that
the steps behind it can be told from there on. White space is skipped up to the next part, names
end where the signs of the document begin, and parts with commas between them are taken one by one.
-/

namespace NodeScript

/-! ### Ends of texts -/

/-- No white space and no comment stands in front of the text. -/
def AtPart (text : List Char) : Prop := ∀ c ∈ text.head?, isLayout c = false ∧ c ≠ '/'

/-- The text starts with a value or a name: neither white space nor a closing sign nor the sign of
an attribute is there. -/
def Opens (text : List Char) : Prop :=
  ∃ c rest, text = c :: rest ∧ isLayout c = false ∧ c ∉ ['/', ')', ']', '\x7d', '#']

/-- The text ends or goes on with a sign that stands behind values. -/
def Closes (text : List Char) : Prop := ∀ c ∈ text.head?, c ∈ [',', ')', ':']

section Ends

variable {text rest : List Char} {c : Char}

theorem Opens.append (opens : Opens text) (rest : List Char) : Opens (text ++ rest) := by
  obtain ⟨c, more, rfl, plain⟩ := opens
  exact ⟨c, more ++ rest, rfl, plain⟩

theorem Opens.atPart (opens : Opens text) : AtPart text := by
  obtain ⟨c, rest, rfl, blank, sign⟩ := opens
  rintro _ ⟨⟩
  exact ⟨blank, fun slash => sign (slash ▸ .head _)⟩

theorem Opens.head_ne (opens : Opens text) (other : c ∈ [')', ']', '\x7d', '#']) :
    text.head? ≠ some c := by
  obtain ⟨first, rest, rfl, -, sign⟩ := opens
  rintro ⟨⟩
  exact sign (.tail _ other)

theorem closes_nil : Closes [] := fun _ absurdity => nomatch absurdity

theorem closes_cons (sign : c ∈ [',', ')', ':']) : Closes (c :: rest) := by
  rintro _ ⟨⟩
  exact sign

theorem Closes.atPart (closes : Closes rest) : AtPart rest := by
  intro c first
  have sign := closes c first
  simp only [List.mem_cons, List.not_mem_nil, or_false] at sign
  rcases sign with rfl | rfl | rfl <;> decide

/-- A kind of characters that no sign behind a value is of does not go on there. -/
theorem Closes.stops (closes : Closes rest) {kind : Char → Bool}
    (others : [',', ')', ':'].any kind = false) : ∀ c ∈ rest.head?, kind c = false := by
  intro c first
  simpa using List.any_eq_false.mp others c (closes c first)

end Ends

namespace Scan

variable {α β σ : Type} {text rest middle : List Char} {a : α} {b : β}

/-- A step takes what stands in front of the rest and gives a value. -/
def Takes (step : Scan α) (text : List Char) (a : α) (rest : List Char) : Prop :=
  step text = .ok (a, rest)

theorem Takes.pure (a : α) (text : List Char) : Takes (pure a) text a text := rfl

theorem Takes.get (text : List Char) : Takes get text text text := rfl

theorem Takes.set (text rest : List Char) : Takes (set rest) text PUnit.unit rest := rfl

theorem Takes.bind {first : Scan α} {next : α → Scan β} (taken : Takes first text a middle)
    (takes : Takes (next a) middle b rest) : Takes (first >>= next) text b rest := by
  have run : (first >>= next) text = (first text >>= fun r => next r.1 r.2) := rfl
  unfold Takes at taken takes ⊢
  rw [run, taken]
  exact takes

theorem Takes.map {step : Scan α} (taken : Takes step text a rest) (f : α → β) :
    Takes (f <$> step) text (f a) rest := by
  have run : (f <$> step) text = (step text >>= fun r => .ok (f r.1, r.2)) := rfl
  unfold Takes at taken ⊢
  rw [run, taken]
  rfl

theorem Takes.inOwner {step : Scan α} (taken : Takes step text a rest) (owner : String) :
    Takes (step.inOwner owner) text a rest := by
  unfold Takes Scan.inOwner at *
  rw [taken]

/-! ### White space -/

theorem skipLayoutFrom_cons {c : Char} (slash : c ≠ '/') (rest : List Char) :
    skipLayoutFrom .blank (c :: rest) =
      if isLayout c then skipLayoutFrom .blank rest else .ok (c :: rest) := by
  rw [skipLayoutFrom]
  · exact fun _ same => absurd same slash
  · exact fun _ same => absurd same slash
  · exact fun _ _ same => absurd same slash
  · exact fun same => absurd same slash

theorem skipLayoutFrom_atPart (atPart : AtPart text) : skipLayoutFrom .blank text = .ok text := by
  cases text with
  | nil => rfl
  | cons c rest =>
    obtain ⟨plain, slash⟩ := atPart c rfl
    rw [skipLayoutFrom_cons slash, if_neg (by simp [plain])]

theorem layout_atPart (atPart : AtPart text) : Takes layout text () text := by
  unfold Takes layout
  rw [skipLayoutFrom_atPart atPart]

theorem layout_blank (atPart : AtPart text) : Takes layout (' ' :: text) () text := by
  unfold Takes layout
  rw [skipLayoutFrom_cons (by decide), if_pos (by decide), skipLayoutFrom_atPart atPart]

theorem layout_lineBreak (depth : Nat) (atPart : AtPart text) :
    Takes layout (lineBreak depth ++ text) () text := by
  have blanks (n : Nat) :
      skipLayoutFrom .blank (List.replicate n ' ' ++ text) = .ok text := by
    induction n with
    | zero => exact skipLayoutFrom_atPart atPart
    | succ n ih =>
      rw [List.replicate_succ, List.cons_append, skipLayoutFrom_cons (by decide),
        if_pos (by decide), ih]
  unfold Takes layout lineBreak
  rw [List.cons_append, skipLayoutFrom_cons (by decide), if_pos (by decide), blanks]

/-! ### Signs -/

theorem take?_found (wanted rest : List Char) :
    Takes (take? wanted) (wanted ++ rest) true rest := by
  unfold Takes take?
  rw [List.isPrefixOf?_eq_some_iff_append_eq.mpr rfl]

theorem isPrefixOf?_other {c : Char} {wanted : List Char} (other : text.head? ≠ some c) :
    (c :: wanted).isPrefixOf? text = none := by
  rw [Option.eq_none_iff_forall_ne_some]
  intro rest found
  rw [← List.isPrefixOf?_eq_some_iff_append_eq.mp found] at other
  exact other rfl

theorem take?_other {c : Char} {wanted : List Char} (other : text.head? ≠ some c) :
    Takes (take? (c :: wanted)) text false text := by
  unfold Takes take?
  rw [isPrefixOf?_other other]

theorem expect_found (c : Char) (otherwise : DocumentFault) (rest : List Char) :
    Takes (expect c otherwise) (c :: rest) () rest := by
  unfold expect
  exact (take?_found [c] rest).bind (.pure _ _)

theorem startsWith_other {c : Char} (other : text.head? ≠ some c) :
    Takes (startsWith c) text false text := by
  unfold Takes startsWith
  simp [other]

theorem startsWith_found (c : Char) (rest : List Char) :
    Takes (startsWith c) (c :: rest) true (c :: rest) := by
  unfold Takes startsWith
  simp

theorem comma_found {after : List Char} (next : Takes layout rest () after) :
    Takes comma (',' :: rest) true after := by
  unfold comma
  refine (layout_atPart ?_).bind ((take?_found [','] rest).bind ?_)
  · rintro _ ⟨⟩
    decide
  · exact next.bind (.pure _ _)

theorem comma_missing (atPart : AtPart text) (other : text.head? ≠ some ',') :
    Takes comma text false text := by
  unfold comma
  exact (layout_atPart atPart).bind ((take?_other other).bind (.pure _ _))

theorem colon_blank (opens : Opens text) : Takes colon (':' :: ' ' :: text) () text := by
  unfold colon
  refine (layout_atPart ?_).bind ((expect_found ':' _ _).bind (layout_blank opens.atPart))
  rintro _ ⟨⟩
  decide

theorem next_cons (c : Char) (rest : List Char) : Takes next (c :: rest) c rest := rfl

theorem peek_cons (c : Char) (rest : List Char) : Takes peek (c :: rest) c (c :: rest) := rfl

/-! ### Names -/

end Scan

/-- A name that a document holds without a mark. -/
def PlainName (name : String) : Prop :=
  isPlainName name = true ∧ name.toList.all isNameChar = true

instance (name : String) : Decidable (PlainName name) := inferInstanceAs (Decidable (_ ∧ _))

/-- The text ends or goes on with a sign that stands behind names. -/
def NameEnds (text : List Char) : Prop := ∀ c ∈ text.head?, c ∈ [',', ')', ':', '(']

section Names

variable {name : String} {text rest : List Char} {c : Char}

theorem Closes.nameEnds (closes : Closes rest) : NameEnds rest := by
  intro c first
  have sign := closes c first
  simp only [List.mem_cons, List.not_mem_nil, or_false] at sign ⊢
  tauto

theorem nameEnds_cons (sign : c ∈ [',', ')', ':', '(']) : NameEnds (c :: rest) := by
  rintro _ ⟨⟩
  exact sign

theorem NameEnds.stops (ends : NameEnds rest) {kind : Char → Bool}
    (others : ∀ c ∈ [',', ')', ':', '('], kind c = false) : ∀ c ∈ rest.head?, kind c = false :=
  fun c first => others c (ends c first)

/-- Neither the signs behind names nor those of quoted text stand in names. -/
theorem isNameChar_sign (sign : c ∈ [',', ')', ':', '(', '"', '\'', '#']) :
    isNameChar c = false := by
  simp only [List.mem_cons, List.not_mem_nil, or_false] at sign
  rcases sign with rfl | rfl | rfl | rfl | rfl | rfl | rfl <;> decide

theorem isMarkedNameChar_sign (sign : c ∈ [',', ')', ':', '(']) : isMarkedNameChar c = false := by
  simp only [List.mem_cons, List.not_mem_nil, or_false] at sign
  rcases sign with rfl | rfl | rfl | rfl <;> decide

theorem NameEnds.stopsName (ends : NameEnds rest) : ∀ c ∈ rest.head?, isNameChar c = false :=
  ends.stops fun _ sign => isNameChar_sign (List.mem_append_left ['"', '\'', '#'] sign)

theorem NameEnds.wordEnds (ends : NameEnds rest) : Scan.wordEnds rest = true := by
  unfold Scan.wordEnds
  rw [Option.all_eq_true]
  intro c first
  rw [ends.stopsName c first]
  rfl

/-- White space is not made of characters of names. -/
theorem isLayout_eq_false (named : isNameChar c = true) : isLayout c = false := by
  have apart : ∀ r ∈ layoutRanges, ∀ n ∈ List.range' r.1 (r.2 + 1 - r.1),
      nameRanges.holds n = false := by decide +kernel
  rw [← Bool.not_eq_true]
  intro blank
  obtain ⟨r, member, low, high⟩ := CodeRanges.exists_of_holds blank
  have other := apart r member c.toNat (List.mem_range'_1.mpr ⟨low, by omega⟩)
  exact absurd named (by simp [isNameChar, CodeRanges.holdsChar, other])

theorem PlainName.exists_cons (plain : PlainName name) :
    ∃ c more, name.toList = c :: more ∧ isNameStart c = true := by
  have start := plain.1
  unfold isPlainName at start
  split at start
  · exact nomatch start
  · rename_i c more chars
    exact ⟨c, more, chars, (Bool.and_eq_true _ _ ▸ start).1⟩

theorem PlainName.chars (plain : PlainName name) : ∀ c ∈ name.toList, isNameChar c = true :=
  List.all_eq_true.mp plain.2

theorem PlainName.opens (plain : PlainName name) (rest : List Char) :
    Opens (name.toList ++ rest) := by
  obtain ⟨c, more, chars, -⟩ := plain.exists_cons
  have named := plain.chars c (chars ▸ .head _)
  refine ⟨c, more ++ rest, by rw [chars, List.cons_append], isLayout_eq_false named, ?_⟩
  intro sign
  simp only [List.mem_cons, List.not_mem_nil, or_false] at sign
  rcases sign with rfl | rfl | rfl | rfl | rfl <;> exact absurd named (by decide)

/-- What holds a character of no name, but no sign behind names, does not stand where a name
stands. -/
theorem PlainName.not_prefix (plain : PlainName name) (ends : NameEnds rest) {start : List Char}
    (odd : (start.any fun c => ['"', '\'', '#'].contains c) = true)
    (noSign : (start.any fun c => [',', ')', ':', '('].contains c) = false) :
    ¬ start <+: name.toList ++ rest := by
  simp only [List.any_eq_true, List.any_eq_false, List.contains_iff_mem] at odd noSign
  intro found
  obtain ⟨c, member, sign⟩ := odd
  have other : isNameChar c = false :=
    isNameChar_sign (List.mem_append_right [',', ')', ':', '('] sign)
  rcases List.prefix_or_prefix_of_prefix found (List.prefix_append name.toList rest) with
    within | ⟨behind, rfl⟩
  · rw [plain.chars c (within.subset member)] at other
    exact nomatch other
  · rw [List.prefix_append_right_inj] at found
    obtain ⟨more, rfl⟩ := found
    cases behind with
    | nil =>
      rw [List.append_nil] at member
      rw [plain.chars c member] at other
      exact nomatch other
    | cons first behind =>
      exact noSign first (List.mem_append_right _ (.head _)) (ends first rfl)

end Names

namespace Scan

variable {name word : String} {text rest : List Char}

theorem startsQuoted_name (plain : PlainName name) (ends : NameEnds rest) :
    startsQuoted (name.toList ++ rest) = false := by
  have starts : ∀ start ∈ quotedStarts,
      (start.toList.any fun c => ['"', '\'', '#'].contains c) = true ∧
        (start.toList.any fun c => [',', ')', ':', '('].contains c) = false := by decide
  unfold startsQuoted
  rw [List.any_eq_false]
  intro start member found
  obtain ⟨odd, noSign⟩ := starts start member
  exact plain.not_prefix ends odd noSign (List.isPrefixOf_iff_prefix.mp found)

theorem name_plain (plain : PlainName name) (ends : NameEnds rest) :
    Takes Scan.name (name.toList ++ rest) name rest := by
  obtain ⟨c, more, chars, start⟩ := plain.exists_cons
  have marked := span_append (p := isMarkedNameChar) (a := name.toList) (b := rest)
    (fun c member => by simp [isMarkedNameChar, plain.chars c member])
    (ends.stops fun _ => isMarkedNameChar_sign)
  have own := span_append plain.chars ends.stopsName
  have unmarked : ['r', '#'].isPrefixOf? (name.toList ++ rest) = none := by
    rw [Option.eq_none_iff_forall_ne_some]
    intro inside found
    exact plain.not_prefix ends (by decide) (by decide)
      ⟨inside, List.isPrefixOf?_eq_some_iff_append_eq.mp found⟩
  have first : Takes peek (name.toList ++ rest) c (name.toList ++ rest) := by
    rw [chars]
    exact peek_cons c _
  unfold Scan.name
  refine first.bind ((Takes.get _).bind ?_)
  dsimp only
  rw [marked.1, start, startsQuoted_name plain ends, unmarked, own.1, own.2]
  dsimp only
  rw [if_neg (by decide), if_neg (by decide), if_neg (lt_irrefl _), String.ofList_toList]
  rfl

theorem word?_found (word : String) (ends : NameEnds rest) :
    Takes (word? word) (word.toList ++ rest) true rest := by
  unfold Takes word?
  rw [List.isPrefixOf?_eq_some_iff_append_eq.mpr rfl]
  dsimp only
  rw [if_pos ends.wordEnds]

theorem word?_other (other : ¬ word.toList <+: text) : Takes (word? word) text false text := by
  have none : word.toList.isPrefixOf? text = none := by
    rw [Option.eq_none_iff_forall_ne_some]
    intro rest found
    exact other ⟨rest, List.isPrefixOf?_eq_some_iff_append_eq.mp found⟩
  unfold Takes word?
  rw [none]

/-! ### Parts -/

section Parts

variable {σ : Type} {part : σ → Scan σ} {closing : Char}

/-- Parts that stand one behind the other, each of which takes the state further. -/
inductive Passes (part : σ → Scan σ) : σ → List (List Char) → σ → Prop
  | done {s} : Passes part s [] s
  | next {s s' s'' front fronts} : Opens front →
      (∀ rest, Closes rest → Takes (part s) (front ++ rest) s' rest) →
      Passes part s' fronts s'' → Passes part s (front :: fronts) s''

/-- Parts on lines of their own and the closing sign, behind an opening sign or a part. -/
def partLines (closing : Char) (depth : Nat) (fronts : List (List Char)) (rest : List Char) :
    List Char :=
  (fronts.flatMap fun front => lineBreak (depth + 1) ++ front ++ [','])
    ++ lineBreak depth ++ closing :: rest

/-- The same without the white space in front. -/
def partsFrom (closing : Char) (depth : Nat) (rest : List Char) : List (List Char) → List Char
  | [] => closing :: rest
  | front :: fronts => front ++ ',' :: partLines closing depth fronts rest

section Laid

variable {s s' : σ} {fronts : List (List Char)} {depth : Nat} {rest : List Char}

theorem Passes.atPart (passes : Passes part s fronts s') (sign : closing ∈ [')', ']', '\x7d']) :
    AtPart (partsFrom closing depth rest fronts) := by
  cases passes with
  | done =>
    rintro _ ⟨⟩
    simp only [List.mem_cons, List.not_mem_nil, or_false] at sign
    rcases sign with rfl | rfl | rfl <;> decide
  | next opens => exact (opens.append _).atPart

theorem Passes.layout_partLines (passes : Passes part s fronts s')
    (sign : closing ∈ [')', ']', '\x7d']) :
    Takes layout (partLines closing depth fronts rest) ()
      (partsFrom closing depth rest fronts) := by
  have atPart : AtPart (partsFrom closing depth rest fronts) := passes.atPart sign
  cases fronts with
  | nil => exact layout_lineBreak depth atPart
  | cons front fronts =>
    have first := layout_lineBreak (depth + 1) atPart
    simpa [partLines, partsFrom] using first

theorem Passes.partsWithin (passes : Passes part s fronts s')
    (sign : closing ∈ [')', ']', '\x7d']) {budget text : List Char}
    (enough : fronts.length < budget.length)
    (laid : Takes layout text () (partsFrom closing depth rest fronts)) :
    Takes (partsWithin closing part budget true s) text s' (closing :: rest) := by
  induction passes generalizing budget text with
  | done =>
    cases budget with
    | nil => exact absurd enough (by simp)
    | cons b budget => exact laid.bind ((startsWith_found closing rest).bind (.pure _ _))
  | next opens reads passes ih =>
    cases budget with
    | nil => exact absurd enough (by simp)
    | cons b budget =>
      have other := List.mem_append_left ['#'] sign
      refine laid.bind ((startsWith_other ((opens.append _).head_ne other)).bind ?_)
      refine (reads _ (closes_cons (by simp))).bind ?_
      refine (comma_found (passes.layout_partLines sign)).bind ?_
      exact ih (by simpa using enough) (layout_atPart (passes.atPart sign))

/-- What stands in brackets behind the opening sign. -/
def insideLines (closing : Char) (depth : Nat) (fronts : List (List Char)) (rest : List Char) :
    List Char :=
  if fronts.isEmpty then closing :: rest else partLines closing depth fronts rest

theorem bracketedLines_append (opening closing : Char) (depth : Nat) (fronts : List (List Char))
    (rest : List Char) : bracketedLines opening closing depth fronts ++ rest =
      opening :: insideLines closing depth fronts rest := by
  unfold bracketedLines insideLines partLines
  split <;> simp

theorem length_le_partLines (closing : Char) (depth : Nat) (fronts : List (List Char))
    (rest : List Char) : fronts.length ≤ (partLines closing depth fronts rest).length := by
  induction fronts with
  | nil => exact Nat.zero_le _
  | cons front fronts ih =>
    simp only [partLines, List.flatMap_cons, List.length_append, List.length_cons] at ih ⊢
    omega

/-- Parts in brackets are taken one by one, and the closing sign is left. -/
theorem Passes.parts (passes : Passes part s fronts s') (sign : closing ∈ [')', ']', '\x7d'])
    (depth : Nat) (rest : List Char) :
    Takes (parts closing part s) (insideLines closing depth fronts rest) s' (closing :: rest) := by
  have laid : Takes layout (insideLines closing depth fronts rest) ()
      (partsFrom closing depth rest fronts) := by
    unfold insideLines
    split
    · rename_i empty
      obtain rfl := List.isEmpty_iff.mp empty
      have atPart : AtPart (partsFrom closing depth rest []) := passes.atPart sign
      exact layout_atPart atPart
    · exact passes.layout_partLines sign
  have enough : fronts.length <
      (closing :: insideLines closing depth fronts rest).length := by
    have bound := length_le_partLines closing depth fronts rest
    unfold insideLines
    split
    · rename_i empty
      simp [List.isEmpty_iff.mp empty]
    · simp only [List.length_cons]
      omega
  exact passes.partsWithin sign enough laid

end Laid

end Parts

end Scan

end NodeScript
