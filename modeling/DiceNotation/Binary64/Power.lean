import DiceNotation.Binary64.Arithmetic

/-!
Powers of binary64 numbers.

Zero, infinite and NaN operands, a base of magnitude one and negative bases are settled here by
rule. What is left, a positive finite base other than one with a finite exponent, goes to a power
function that is a parameter of the rules. In use it is that of the system (`systemPower`), which
is reached through the bit patterns of the two numbers.
-/

namespace DiceNotation.Binary64

/-- Why a power is no real number. -/
inductive PowerFault where
  | zeroBase
  | tooLarge
  | notReal
  deriving DecidableEq

/-- The bit pattern of a finite number. -/
def Finite.toBits (x : Finite) : UInt64 :=
  let sign := if x.negative then 1 <<< 63 else 0
  let body :=
    if x.mantissa < fullMantissa then x.mantissa
    else ((x.exponent + 1075).toNat <<< 52) + (x.mantissa - fullMantissa)
  UInt64.ofNat (sign + body)

/-- The number with the given bit pattern. -/
def ofBits (bits : UInt64) : Binary64 :=
  let n := bits.toNat
  let negative := n >>> 63 == 1
  let field := (n >>> 52) % 2048
  let fraction := n % fullMantissa
  if field = 2047 then
    if fraction = 0 then infinite negative else nan
  else if field = 0 then ofParts negative fraction (-1074)
  else ofParts negative (fullMantissa + fraction) ((field : Int) - 1075)

/-- A power function for positive finite bases other than one and finite exponents. -/
abbrev PowerFunction := Finite → Finite → Binary64

/-- The system's power function. -/
def systemPower : PowerFunction := fun x y =>
  ofBits ((Float.ofBits x.toBits).pow (Float.ofBits y.toBits)).toBits

/-- The number, negated if so told. -/
def negateIf (c : Bool) (x : Binary64) : Binary64 := if c then neg x else x

/-- A finite base to a finite exponent other than zero. A negative base has a power only at an
    integer, and its sign is that of the base at an odd one. -/
def finitePower (general : PowerFunction) (x y : Finite) : Except PowerFault Binary64 :=
  if x.isZero then
    if y.isBelowZero then .error .zeroBase else .ok (zero (x.negative && y.isOddInteger))
  else if x.negative && !y.isIntegral then
    .error (if (general x.abs y).isFinite then .notReal else .tooLarge)
  else
    let turn := negateIf (x.negative && y.isOddInteger)
    if finite x.abs = one then .ok (turn one)
    else
      let r := general x.abs y
      if r.isFinite then .ok (turn r) else .error .tooLarge

/-- Any base to an infinite exponent: a magnitude above one grows, one below it vanishes. -/
def infinitePower (base : Binary64) (negative : Bool) : Binary64 :=
  let grows := match base with
    | finite x => decide (x.den < x.num.natAbs)
    | _ => true
  if abs base = one then one
  else if grows = negative then zero false else infinite false

/-- `base ^ exponent`. Anything to the power zero is one, and so is one to any power, NaN included. -/
def power (general : PowerFunction) (base exponent : Binary64) : Except PowerFault Binary64 :=
  if exponent.isZero then .ok one
  else
    match base, exponent with
    | nan, _ => .ok nan
    | v, nan => .ok (if v = one then one else nan)
    | v, infinite t => .ok (infinitePower v t)
    | infinite s, finite y =>
      let negative := s && y.isOddInteger
      .ok (if y.negative then zero negative else infinite negative)
    | finite x, finite y => finitePower general x y

end DiceNotation.Binary64
