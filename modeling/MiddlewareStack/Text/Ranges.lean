/-!
# Ranges of code points

A property of characters is an ASCII rule and, beyond ASCII, a list of ranges taken from the Unicode
data. Splitting the two keeps the ASCII part free of tables.
-/

namespace MiddlewareStack.Text

/-- Closed ranges of code points beyond ASCII. -/
abbrev CodeRanges := List (Nat × Nat)

/-- Closed ranges in which only every second code point counts when the last field is two. -/
abbrev SteppedRanges := List (Nat × Nat × Nat)

def CodeRanges.contains (ranges : CodeRanges) (c : Char) : Bool :=
  ranges.any fun (low, high) => decide (low ≤ c.toNat) && decide (c.toNat ≤ high)

def SteppedRanges.contains (ranges : SteppedRanges) (c : Char) : Bool :=
  ranges.any fun (low, high, step) =>
    decide (low ≤ c.toNat) && decide (c.toNat ≤ high) && (c.toNat - low) % step == 0

end MiddlewareStack.Text
