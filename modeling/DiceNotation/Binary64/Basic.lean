/-!
Binary64 numbers as exact values.

A finite number is a sign and a magnitude `mantissa * 2 ^ exponent`, written in the one canonical
way: 53 bits of mantissa, or fewer at the least exponent. Every operation computes an exact ratio
and rounds it once (`ofRatio`), to the nearest number, a tie to the even mantissa. A rounded
magnitude that has no canonical form is beyond the range and becomes infinite.
-/

namespace DiceNotation

/-- The numerator of `b ^ e` for an exponent of either sign. -/
def powNum (b : Nat) (e : Int) : Nat := Nat.pow b e.toNat

/-- The denominator of `b ^ e` for an exponent of either sign. -/
def powDen (b : Nat) (e : Int) : Nat := Nat.pow b (-e).toNat

namespace Binary64

/-- The least mantissa of 53 bits. -/
def fullMantissa : Nat := 0x10000000000000

/-- The one way to write a finite magnitude. -/
def Canonical (m : Nat) (e : Int) : Prop :=
  m < 2 * fullMantissa ∧ -1074 ≤ e ∧ e ≤ 971 ∧ (fullMantissa ≤ m ∨ e = -1074)

instance (m : Nat) (e : Int) : Decidable (Canonical m e) := by
  unfold Canonical; infer_instance

/-- A finite number: its sign, and `mantissa * 2 ^ exponent`. -/
structure Finite where
  negative : Bool
  mantissa : Nat
  exponent : Int
  canonical : Canonical mantissa exponent
  deriving DecidableEq

end Binary64

/-- A binary64 number; NaN has no sign and no payload. -/
inductive Binary64 where
  | nan
  | infinite (negative : Bool)
  | finite (x : Binary64.Finite)
  deriving DecidableEq

namespace Binary64

/-- The magnitude `m * 2 ^ e` with a sign; infinite if that is no finite number. -/
def ofParts (negative : Bool) (m : Nat) (e : Int) : Binary64 :=
  if h : Canonical m e then .finite ⟨negative, m, e, h⟩ else .infinite negative

/-- A signed zero. -/
def zero (negative : Bool) : Binary64 := .finite ⟨negative, 0, -1074, by decide⟩

/-- The number 1. -/
def one : Binary64 := .finite ⟨false, fullMantissa, -52, by decide⟩

instance : Inhabited Binary64 := ⟨zero false⟩

/-- Neither infinite nor NaN. -/
def isFinite : Binary64 → Bool
  | .finite _ => true
  | _ => false

/-- `num / den` to the nearest natural number, a tie to the even one. -/
def roundQuotient (num den : Nat) : Nat :=
  let q := num / den
  let r := num % den
  if 2 * r < den ∨ (2 * r = den ∧ q % 2 = 0) then q else q + 1

/-- The greatest `k` with `2 ^ k ≤ num / den`. -/
def binade (num den : Nat) : Int :=
  let k : Int := (num.log2 : Int) - (den.log2 : Int)
  if den * powNum 2 k ≤ num * powDen 2 k then k else k - 1

/-- The exponent at which a positive ratio is rounded: 53 bits of mantissa, unless that is below
    the least exponent. -/
def targetExponent (num den : Nat) : Int := max (binade num den - 52) (-1074)

/-- `num / den` with a sign, rounded once. -/
def roundRatio (negative : Bool) (num den : Nat) : Binary64 :=
  if num = 0 then zero negative
  else
    let e := targetExponent num den
    let m := roundQuotient (num * powDen 2 e) (den * powNum 2 e)
    if m = 2 * fullMantissa then ofParts negative fullMantissa (e + 1) else ofParts negative m e

/-- The number nearest to `num / den`; an exact zero is positive. -/
def ofRatio (num : Int) (den : Nat) : Binary64 := roundRatio (num < 0) num.natAbs den

/-- The number nearest to an integer. -/
def ofInt (n : Int) : Binary64 := ofRatio n 1

namespace Finite

/-- The numerator of the exact value over `den`. -/
def num (x : Finite) : Int :=
  let m := x.mantissa * powNum 2 x.exponent
  if x.negative then -(m : Int) else m

/-- The denominator of the exact value. -/
def den (x : Finite) : Nat := powDen 2 x.exponent

theorem den_pos (x : Finite) : 0 < x.den := Nat.two_pow_pos _

/-- Is the value zero, of either sign? -/
def isZero (x : Finite) : Bool := x.mantissa == 0

/-- The integer part, toward zero. -/
def truncate (x : Finite) : Int := x.num.tdiv x.den

/-- Has the value no fractional part? -/
def isIntegral (x : Finite) : Bool := x.num % x.den == 0

/-- Is the value an odd integer? -/
def isOddInteger (x : Finite) : Bool := x.isIntegral && (x.num / x.den) % 2 == 1

/-- The value is below zero (so -0.0 is not). -/
def isBelowZero (x : Finite) : Bool := x.negative && !x.isZero

end Finite

/-- Is the number a zero, of either sign? -/
def isZero : Binary64 → Bool
  | .finite x => x.isZero
  | _ => false

end Binary64

end DiceNotation
