/-!
Character classes as lists of closed ranges of code points. The ranges ascend and do not touch, so
a lookup may stop at the first range that starts above the character it is asked about.
-/

namespace NodeScript

/-- Closed ranges of code points, ascending and apart. -/
abbrev CodeRanges := List (Nat × Nat)

/-- The ranges ascend and a gap of at least one code point lies between neighbours. -/
def CodeRanges.Ascending : CodeRanges → Bool
  | [] => true
  | [r] => r.1 ≤ r.2
  | r :: s :: rest => r.1 ≤ r.2 && r.2 + 1 < s.1 && CodeRanges.Ascending (s :: rest)

/-- Whether a code point lies in one of the ranges. -/
def CodeRanges.holds : CodeRanges → Nat → Bool
  | [], _ => false
  | r :: rest, n => if n < r.1 then false else n ≤ r.2 || CodeRanges.holds rest n

/-- Whether a character lies in one of the ranges. -/
def CodeRanges.holdsChar (ranges : CodeRanges) (c : Char) : Bool :=
  ranges.holds c.toNat

/-- What ranges hold lies in one of them. -/
theorem CodeRanges.exists_of_holds {ranges : CodeRanges} {n : Nat}
    (member : ranges.holds n = true) :
    ∃ r ∈ ranges, r.1 ≤ n ∧ n ≤ r.2 := by
  induction ranges with
  | nil => simp [CodeRanges.holds] at member
  | cons r rest ih =>
    simp only [CodeRanges.holds] at member
    split at member
    · simp at member
    · rename_i above
      rcases Bool.or_eq_true _ _ |>.mp member with inside | later
      · exact ⟨r, List.mem_cons_self, by omega, by simpa using inside⟩
      · obtain ⟨s, mem, bounds⟩ := ih later
        exact ⟨s, List.mem_cons_of_mem _ mem, bounds⟩

end NodeScript
