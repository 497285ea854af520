import DiceNotation.Binary64.Basic

/-!
The exact order of integers and binary64 numbers together.

A number has a `Level` on the extended line, an infinity or an exact ratio, and two numbers are
compared by their levels alone: an integer is never rounded to be compared with a real. NaN has no
level, so every comparison with it is false.
-/

namespace DiceNotation

/-- A point of the extended line; a ratio has a positive denominator. -/
inductive Level where
  | below
  | ratio (num : Int) (den : Nat)
  | above

namespace Level

/-- Strictly less. -/
def lt : Level → Level → Bool
  | below, below => false
  | below, _ => true
  | ratio _ _, below => false
  | ratio a b, ratio c d => decide (a * d < c * b)
  | ratio _ _, above => true
  | above, _ => false

/-- The same point. -/
def same : Level → Level → Bool
  | below, below => true
  | ratio a b, ratio c d => a * d == c * b
  | above, above => true
  | _, _ => false

/-- The level of an integer. -/
def ofInt (n : Int) : Level := ratio n 1

end Level

/-- The level of a number; NaN has none. -/
def Binary64.level? : Binary64 → Option Level
  | .nan => none
  | .infinite true => some .below
  | .infinite false => some .above
  | .finite x => some (.ratio x.num x.den)

end DiceNotation
