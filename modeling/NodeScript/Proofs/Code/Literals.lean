import NodeScript.Proofs.Code.Pieces

/-!
String literals of generated code. What is read as a literal is exactly what a grammar of literals
says: escapes for five characters, and every other character as it is unless it is a quote, a backslash
or a line break. What is written for a string is a literal of the grammar that stands for the string;
so it is read as a whole, no other string is written in the same way, and no line breaks in it.
-/

namespace NodeScript

variable {input rest body text : List Char}

/-- What stands between the quotes of a string literal, and the text that it stands for. -/
inductive LiteralBody : List Char → List Char → Prop
  | nil : LiteralBody [] []
  | escaped {letter meant : Char} {body text : List Char}
    (escapes : unescapeLiteral? letter = some meant) (rest : LiteralBody body text) :
    LiteralBody ('\\' :: letter :: body) (meant :: text)
  | plain {c : Char} {body text : List Char} (plain : c ∉ ['"', '\\', '\n', '\r'])
    (rest : LiteralBody body text) : LiteralBody (c :: body) (c :: text)

/-! ### Reading -/

theorem readLiteralBody_plain {c : Char} (plain : c ∉ ['"', '\\', '\n', '\r']) :
    readLiteralBody (c :: input) = do
      let (text, after) ← readLiteralBody input
      return (c :: text, after) := by
  simp only [List.mem_cons, List.not_mem_nil, or_false, not_or] at plain
  obtain ⟨quote, backslash, newline, return'⟩ := plain
  rw [readLiteralBody.eq_4 _ _ quote fun _ _ same => absurd same backslash, if_neg]
  simp [backslash, newline, return']

/-- The reader takes what the grammar has, up to the first quote that is not escaped, and nothing
else. -/
theorem readLiteralBody_eq_some_iff : readLiteralBody input = some (text, rest) ↔
    ∃ body, LiteralBody body text ∧ input = body ++ '"' :: rest := by
  constructor
  · intro read
    fun_induction readLiteralBody input generalizing text with
    | case1 => exact nomatch read
    | case2 after =>
      obtain ⟨rfl, rfl⟩ := Prod.mk.inj (Option.some.inj read)
      exact ⟨[], .nil, rfl⟩
    | case3 letter after ih =>
      obtain ⟨meant, escapes, read⟩ := Option.bind_eq_some_iff.mp read
      obtain ⟨⟨text, after⟩, inner, same⟩ := Option.bind_eq_some_iff.mp read
      obtain ⟨rfl, rfl⟩ := Prod.mk.inj (Option.some.inj same)
      obtain ⟨body, spelled, rfl⟩ := ih inner
      exact ⟨_, spelled.escaped escapes, rfl⟩
    | case4 => exact nomatch read
    | case5 c after quote _ other ih =>
      obtain ⟨⟨text, after⟩, inner, same⟩ := Option.bind_eq_some_iff.mp read
      obtain ⟨rfl, rfl⟩ := Prod.mk.inj (Option.some.inj same)
      obtain ⟨body, spelled, rfl⟩ := ih inner
      refine ⟨c :: body, .plain ?_ spelled, rfl⟩
      simpa [or_assoc] using not_or.mpr ⟨quote, other⟩
  · rintro ⟨body, spelled, rfl⟩
    induction spelled with
    | nil => rfl
    | escaped escapes _ ih =>
      rw [List.cons_append, List.cons_append, readLiteralBody, escapes, ih]
      rfl
    | plain plain _ ih =>
      rw [List.cons_append, readLiteralBody_plain plain, ih]
      rfl

theorem readLiteral_eq_some_iff : readLiteral input = some (text, rest) ↔
    ∃ body, LiteralBody body text ∧ input = '"' :: body ++ '"' :: rest := by
  unfold readLiteral
  split
  · simp [readLiteralBody_eq_some_iff]
  · rename_i other
    refine ⟨nofun, ?_⟩
    rintro ⟨body, -, rfl⟩
    exact absurd rfl (other _)

/-- Nothing in a literal breaks a line, for line breaks are escaped and no escape has one. -/
theorem LiteralBody.unbroken (spelled : LiteralBody body text) : ∀ c ∈ body, c ≠ '\n' ∧ c ≠ '\r' := by
  induction spelled with
  | nil => exact nofun
  | @escaped letter _ _ _ escapes _ ih =>
    have solid : letter ≠ '\n' ∧ letter ≠ '\r' := by
      constructor <;> rintro rfl <;> exact nomatch escapes
    exact List.forall_mem_cons.mpr ⟨by decide, List.forall_mem_cons.mpr ⟨solid, ih⟩⟩
  | plain plain _ ih =>
    refine List.forall_mem_cons.mpr ⟨?_, ih⟩
    constructor <;> rintro rfl <;> exact absurd plain (by decide)

/-! ### Writing -/

theorem LiteralBody.escapeLiteral (spelled : LiteralBody body text) (c : Char) :
    LiteralBody (escapeLiteral c ++ body) (c :: text) := by
  unfold NodeScript.escapeLiteral
  split
  · subst c; exact .escaped rfl spelled
  split
  · subst c; exact .escaped rfl spelled
  split
  · subst c; exact .escaped rfl spelled
  split
  · subst c; exact .escaped rfl spelled
  split
  · subst c; exact .escaped rfl spelled
  · rename_i quote backslash newline return' _
    exact .plain (by simp [quote, backslash, newline, return']) spelled

theorem literalBody_flatMap (text : List Char) :
    LiteralBody (text.flatMap escapeLiteral) text := by
  induction text with
  | nil => exact .nil
  | cons c text ih => exact ih.escapeLiteral c

/-- A string literal stands for the text that it was written for, and the reader stops behind it. -/
theorem readLiteral_quoteLiteral (text rest : List Char) :
    readLiteral (quoteLiteral text ++ rest) = some (text, rest) :=
  readLiteral_eq_some_iff.mpr ⟨_, literalBody_flatMap text, by simp [quoteLiteral]⟩

theorem quoteLiteral_injective : Function.Injective quoteLiteral := by
  intro a b same
  have read := readLiteral_quoteLiteral a []
  rw [same, readLiteral_quoteLiteral, Option.some.injEq, Prod.mk.injEq] at read
  exact read.1.symm

theorem quoteLiteral_unbroken (text : List Char) : ∀ c ∈ quoteLiteral text, c ≠ '\n' ∧ c ≠ '\r' := by
  have inside := (literalBody_flatMap text).unbroken
  rw [quoteLiteral, List.cons_append]
  refine List.forall_mem_cons.mpr ⟨by decide, List.forall_mem_append.mpr ⟨inside, ?_⟩⟩
  exact List.forall_mem_singleton.mpr (by decide)

theorem Expr.toList_text_quoted (value : String) :
    (Expr.quoted value).text.toList = quoteLiteral value.toList := by
  have same : (Expr.quoted value).text = String.ofList (quoteLiteral value.toList) :=
    String.ofList_toList
  rw [same, String.toList_ofList]

/-- Different strings are printed as different literals. -/
theorem Expr.eq_of_text_quoted_eq {a b : String} (same : (Expr.quoted a).text = (Expr.quoted b).text) :
    a = b := by
  refine String.toList_injective (quoteLiteral_injective ?_)
  rw [← toList_text_quoted, same, toList_text_quoted]

/-- A string literal is read as one literal with nothing left over, whatever is printed behind it is
left as it is, and what is read is the string. So the literal of another string is another text; and
since no line breaks in a literal, a line that is printed with it stays one line. -/
theorem Expr.quoted_read_back (value : String) :
    readLiteral (Expr.quoted value).text.toList = some (value.toList, []) ∧
    (∀ behind, readLiteral ((Expr.quoted value).text.toList ++ behind) =
      some (value.toList, behind)) ∧
    (∀ other, (Expr.quoted other).text = (Expr.quoted value).text → other = value) ∧
    (∀ c ∈ (Expr.quoted value).text.toList, c ≠ '\n' ∧ c ≠ '\r') ∧
    ∀ depth origin before after, Unbroken before → Unbroken after →
      Unbroken (sourceLine depth origin (before ++ (Expr.quoted value).text ++ after)).text := by
  rw [toList_text_quoted]
  have unbroken := quoteLiteral_unbroken value.toList
  refine ⟨?_, readLiteral_quoteLiteral _, fun _ => eq_of_text_quoted_eq, unbroken, ?_⟩
  · simpa using readLiteral_quoteLiteral value.toList []
  · intro depth origin before after front back
    have clean : Unbroken (Expr.quoted value).text := fun broken =>
      (unbroken '\n' (toList_text_quoted value ▸ broken)).1 rfl
    exact unbroken_sourceLine.mpr (unbroken_append.mpr ⟨unbroken_append.mpr ⟨front, clean⟩, back⟩)

end NodeScript
