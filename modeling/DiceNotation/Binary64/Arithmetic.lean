import DiceNotation.Binary64.Basic

/-!
The four operations on binary64 numbers, each the exact result rounded once.

The rules for infinities, NaN and the sign of an exact zero are those of IEEE 754.
-/

namespace DiceNotation.Binary64

namespace Finite

/-- The number with the other sign. -/
def neg (x : Finite) : Finite := { x with negative := !x.negative }

/-- The number without its sign. -/
def abs (x : Finite) : Finite := { x with negative := false }

end Finite

/-- The number with the other sign; NaN stays NaN. -/
def neg : Binary64 → Binary64
  | nan => nan
  | infinite s => infinite !s
  | finite x => finite x.neg

/-- The number without its sign. -/
def abs : Binary64 → Binary64
  | nan => nan
  | infinite _ => infinite false
  | finite x => finite x.abs

/-- The rounded sum; an exact zero is negative only when both terms are. -/
def add : Binary64 → Binary64 → Binary64
  | nan, _ => nan
  | _, nan => nan
  | infinite s, infinite t => if s = t then infinite s else nan
  | infinite s, finite _ => infinite s
  | finite _, infinite t => infinite t
  | finite x, finite y =>
    let n := x.num * y.den + y.num * x.den
    if n = 0 then zero (x.negative && y.negative) else ofRatio n (x.den * y.den)

/-- The rounded difference. -/
def sub (x y : Binary64) : Binary64 := add x (neg y)

/-- The rounded product, its sign the product of the signs. -/
def mul : Binary64 → Binary64 → Binary64
  | nan, _ => nan
  | _, nan => nan
  | infinite s, infinite t => infinite (s ^^ t)
  | infinite s, finite y => if y.isZero then nan else infinite (s ^^ y.negative)
  | finite x, infinite t => if x.isZero then nan else infinite (x.negative ^^ t)
  | finite x, finite y =>
    roundRatio (x.negative ^^ y.negative) (x.num.natAbs * y.num.natAbs) (x.den * y.den)

/-- The rounded quotient, its sign the product of the signs. -/
def div : Binary64 → Binary64 → Binary64
  | nan, _ => nan
  | _, nan => nan
  | infinite _, infinite _ => nan
  | infinite s, finite y => infinite (s ^^ y.negative)
  | finite x, infinite t => zero (x.negative ^^ t)
  | finite x, finite y =>
    if y.isZero then
      if x.isZero then nan else infinite (x.negative ^^ y.negative)
    else
      roundRatio (x.negative ^^ y.negative) (x.num.natAbs * y.den) (x.den * y.num.natAbs)

/-- The integer part toward zero; infinities and NaN have none. -/
def truncate? : Binary64 → Option Int
  | finite x => some x.truncate
  | _ => none

/-- The sign bit. -/
def isNegative : Binary64 → Bool
  | nan => false
  | infinite s => s
  | finite x => x.negative

end DiceNotation.Binary64
