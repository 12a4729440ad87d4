/-!
# Ranges of characters

Properties of characters that only a table can give.
-/

namespace TapeMachine.Text

/-- Ranges of character codes, ends included. -/
abbrev CharRanges := List (Nat × Nat)

namespace CharRanges

def has (ranges : CharRanges) (c : Char) : Bool :=
  ranges.any fun range => range.1 ≤ c.toNat && c.toNat ≤ range.2

theorem has_iff {ranges : CharRanges} {c : Char} :
    ranges.has c ↔ ∃ range ∈ ranges, range.1 ≤ c.toNat ∧ c.toNat ≤ range.2 := by
  simp [has]

end CharRanges

end TapeMachine.Text
