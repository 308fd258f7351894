/-!
Sets of code points written as lists of inclusive ranges, the form in which a character property
is tabulated. Membership is a scan of the list; `contains_iff` says it is
exactly "some range holds the code point".
-/
namespace Lox

/-- A set of code points as inclusive ranges `(first, last)`, in increasing order. -/
abbrev CodeRanges := List (Nat × Nat)

/-- Whether a code point lies in one of the ranges. -/
def CodeRanges.contains (rs : CodeRanges) (c : Nat) : Bool :=
  rs.any fun r => decide (r.1 ≤ c) && decide (c ≤ r.2)

theorem CodeRanges.contains_iff (rs : CodeRanges) (c : Nat) :
    rs.contains c = true ↔ ∃ r ∈ rs, r.1 ≤ c ∧ c ≤ r.2 := by
  simp [CodeRanges.contains]

theorem CodeRanges.contains_cons (r : Nat × Nat) (rs : CodeRanges) (c : Nat) :
    CodeRanges.contains (r :: rs) c = (decide (r.1 ≤ c) && decide (c ≤ r.2) || CodeRanges.contains rs c) := by
  simp [CodeRanges.contains]

/-- No range that starts above a code point holds it. -/
theorem CodeRanges.contains_of_below (rs : CodeRanges) {c : Nat} (below : ∀ r ∈ rs, c < r.1) :
    rs.contains c = false := by
  rw [← Bool.not_eq_true, CodeRanges.contains_iff]
  rintro ⟨r, mem, low, -⟩
  exact absurd low (Nat.not_le_of_lt (below r mem))

end Lox
