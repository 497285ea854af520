import DiceNotation.Arithmetic

/-!
The host on which evaluation runs.

A host need not be able to do all that evaluation asks of it: to write an integer digit by digit, to
fill a list, to draw random bits. Where it is not, there is a defect, for the notation has no error to
say so. Programs run on the `standard` host, which has a bound on each of the three. What an expression
means has nothing to do with these bounds; it is what comes of it on the `unlimited` host, which is the
one that is meant where the namespace `Unlimited` is open. The two come to the same as long as the
standard host is able to do what it is asked (`Session.run_of_served`).
-/

namespace DiceNotation

/-- What a host is able to do. -/
class Host where
  /-- Can the integer be written digit by digit? -/
  writes : Int → Bool
  /-- Can a list be filled with so many items? A negative number asks for none of them. -/
  fills : Int → Bool
  /-- Can so many random bits be drawn at once? -/
  draws : Nat → Bool

namespace Host

/-- Numbers of random bits are below this. -/
def bitBound : Nat := 1 <<< 31

/-- The host of programs. It counts items as it counts repetitions. -/
instance standard : Host where
  writes n := !Number.isUnwritable n
  fills n := decide (-(Scalar.countBound : Int) ≤ n) && decide (n < Scalar.countBound)
  draws k := decide (k < bitBound)

/-- The host that is able to do everything. -/
abbrev unlimited : Host := ⟨fun _ => true, fun _ => true, fun _ => true⟩

end Host

namespace Unlimited

attribute [scoped instance] Host.unlimited

end Unlimited

section

variable [Host] {α : Type}

/-- Refuses what is beyond a limit. The text of the error has the limit in it. -/
def refuseBeyond (limit : Int) (e : Error) : Outcome α :=
  if Host.writes limit then fail e else .error (.defect .wrongValue)

/-- What keeps dice from being rolled that are within the limit, if anything does. Dice without sides
    take a list only, and no dice take nothing; otherwise the first one takes a positive number of
    sides and as many random bits as that number has. -/
def rollDefect? (count sides : Int) : Option Defect :=
  if sides = 0 then if Host.fills count then none else some .overflow
  else if count ≤ 0 then none
  else if sides < 0 then some .wrongValue
  else if Host.draws (Number.bitLength sides.toNat) then none
  else some .overflow

end

open Unlimited in
theorem refuseBeyond_unlimited {α : Type} (limit : Int) (e : Error) :
    refuseBeyond limit e = (fail e : Outcome α) := rfl

open Unlimited in
/-- Dice of no negative number of sides are always rolled by the host that is able to. -/
theorem rollDefect?_unlimited (count : Int) {sides : Int} (h : 0 ≤ sides) :
    rollDefect? count sides = none := by
  unfold rollDefect?
  split
  · rfl
  split
  · rfl
  · rw [if_neg (Int.not_lt.mpr h)]
    rfl

end DiceNotation
