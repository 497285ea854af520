import DiceNotation.Binary64.Basic

/-!
The shortest decimal that reads back as a given binary64 number.

A finite number is the nearest one to every real of an interval around it (ends included when its
mantissa is even). The decimal grids `10 ^ t` are tried from coarse to fine; the first grid with a
point in the interval gives the fewest digits, and of its two points next to the number the nearer
one is taken, the even one on a tie.
-/

namespace DiceNotation

/-- The decimal `digits * 10 ^ exponent`. -/
structure Decimal where
  digits : Nat
  exponent : Int
  deriving DecidableEq

namespace Binary64.Finite

/-- The interval of reals that round to a number, as `low .. high` around `middle` over `den`. -/
structure Interval where
  low : Nat
  middle : Nat
  high : Nat
  den : Nat
  closed : Bool

/-- Half a unit of the last place on both sides, a quarter below a power of two whose lower
    neighbour is closer. -/
def interval (x : Finite) : Interval :=
  let m := 4 * x.mantissa
  let e := x.exponent - 2
  let below := if x.mantissa = fullMantissa ∧ x.exponent ≠ -1074 then 1 else 2
  let scale := powNum 2 e
  ⟨(m - below) * scale, m * scale, (m + 2) * scale, powDen 2 e, x.mantissa % 2 == 0⟩

/-- Does `num / down` over the same denominator lie in the interval? -/
def Interval.contains (i : Interval) (num down : Nat) : Bool :=
  let lo := i.low * down
  let hi := i.high * down
  if i.closed then lo ≤ num && num ≤ hi else lo < num && num < hi

/-- The point of the grid `10 ^ t` that lies in the interval and is nearest to its middle. -/
def Interval.onGrid? (i : Interval) (t : Int) : Option Nat :=
  let down := powDen 10 t
  let unit := powNum 10 t * i.den
  let middle := i.middle * down
  let c := middle / unit
  let r := middle % unit
  let first := i.contains (c * unit) down
  let second := i.contains ((c + 1) * unit) down
  if first && second then
    some (if 2 * r < unit ∨ (2 * r = unit ∧ c % 2 = 0) then c else c + 1)
  else if first then some c
  else if second then some (c + 1)
  else none

/-- The first of `n` ever finer grids with a point in the interval. -/
def Interval.search (i : Interval) : Nat → Int → Decimal
  | 0, t => ⟨i.middle * powDen 10 t / (i.den * powNum 10 t), t⟩
  | n + 1, t =>
    match i.onGrid? t with
    | some c => ⟨c, t⟩
    | none => i.search n (t - 1)

/-- A power of ten above the number, at most three places above its first digit. -/
def topPlace (x : Finite) : Int :=
  let bits := x.exponent + x.mantissa.log2
  bits * 1233 / 4096 + 2

/-- The shortest decimal that rounds to the magnitude, the nearest one of that length. -/
def shortest (x : Finite) : Decimal :=
  if x.mantissa = 0 then ⟨0, 0⟩ else x.interval.search 24 x.topPlace

end Binary64.Finite

end DiceNotation
