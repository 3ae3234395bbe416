/-!
Where a part of a text ends. A scan takes what is of one kind, up to the first character of another;
so what it takes does not depend on more than that character.
-/

namespace NodeScript

/-- What is taken of a text ends where the first character is of another kind. -/
theorem span_append {p : Char → Bool} {a b : List Char} (all : ∀ c ∈ a, p c = true)
    (stops : ∀ c ∈ b.head?, p c = false) :
    (a ++ b).takeWhile p = a ∧ (a ++ b).dropWhile p = b := by
  have none : b.takeWhile p = [] ∧ b.dropWhile p = b := by
    cases b with
    | nil => exact ⟨rfl, rfl⟩
    | cons c rest => simp [stops c rfl]
  rw [List.takeWhile_append_of_pos all, List.dropWhile_append_of_pos all, none.1, none.2,
    List.append_nil]
  exact ⟨rfl, rfl⟩

/-- A text is empty or goes on with one of some characters. -/
def GoesOn (marks text : List Char) : Prop := ∀ c ∈ text.head?, c ∈ marks

namespace GoesOn

variable {marks text : List Char}

theorem nil (marks : List Char) : GoesOn marks [] := nofun

theorem cons {c : Char} (among : c ∈ marks) (text : List Char) : GoesOn marks (c :: text) := by
  rintro _ ⟨⟩
  exact among

theorem mono {more : List Char} (goes : GoesOn marks text) (within : marks ⊆ more) :
    GoesOn more text :=
  fun c first => within (goes c first)

theorem head?_ne {c : Char} (goes : GoesOn marks text) (absent : c ∉ marks) :
    text.head? ≠ some c :=
  fun first => absent (goes c first)

/-- A kind of characters that none of the marks is of ends there. -/
theorem stops {p : Char → Bool} (goes : GoesOn marks text) (other : marks.any p = false) :
    ∀ c ∈ text.head?, p c = false :=
  fun c first => by simpa using List.any_eq_false.mp other c (goes c first)

end GoesOn

end NodeScript
