import DiceNotation.Binary64.Arithmetic
import DiceNotation.Binary64.Order
import DiceNotation.Binary64.Power
import DiceNotation.Binary64.Text

/-!
Numbers: exact integers and binary64 reals, and arithmetic on them together.

Integers stay exact under addition, subtraction and multiplication, under division when the quotient
is an integer, and under a power with a natural exponent. As soon as a real takes part, both
operands become reals; an integer beyond their range is then a fault. The result of an operation is
finite (`settle`), or the operation has a fault.
-/

namespace DiceNotation

/-- A number of either kind. -/
inductive Number where
  | int (n : Int)
  | real (x : Binary64)
  deriving DecidableEq

/-- Why an operation on numbers has no result. -/
inductive Fault where
  | zeroDivision
  | tooLarge
  | notReal
  deriving DecidableEq

namespace Number

/-- Is it an integer? -/
def isInt : Number → Bool
  | int _ => true
  | real _ => false

/-- A real may be infinite or NaN; an integer never is. -/
def isFinite : Number → Bool
  | int _ => true
  | real x => x.isFinite

/-- Where the number stands on the extended line. -/
def level? : Number → Option Level
  | int n => some (.ofInt n)
  | real x => x.level?

/-- Exactly less; false when NaN takes part. -/
def lt (a b : Number) : Bool :=
  match a.level?, b.level? with
  | some s, some t => s.lt t
  | _, _ => false

/-- Equal in value whatever the kinds; false when NaN takes part. -/
def same (a b : Number) : Bool :=
  match a.level?, b.level? with
  | some s, some t => s.same t
  | _, _ => false

/-- Is the value zero? -/
def isZero : Number → Bool
  | int n => n == 0
  | real x => x.isZero

/-! ### Text -/

/-- Integers wider than this many bits are summarised when shown. -/
def maxShownBits : Nat := 3000

/-- The number of bits of a magnitude; zero has none. -/
def bitLength (n : Nat) : Nat := if n = 0 then 0 else n.log2 + 1

/-- The binary64 number nearest to the decimal logarithm of two. -/
def log10Two : Binary64 := .finite ⟨false, 0x134413509f79ff, -54, by decide⟩

/-- About how many decimal digits a magnitude of that many bits has. -/
def digitEstimate (bits : Nat) : Int :=
  ((Binary64.ofInt bits).mul log10Two).truncate?.getD 0 + 1

/-- An integer, digit by digit if it is not too wide. -/
def intText (n : Int) : String :=
  let bits := bitLength n.natAbs
  if maxShownBits < bits then
    (if n < 0 then "-" else "") ++ "<integer of about " ++ toString (digitEstimate bits) ++ " digits>"
  else toString n

/-- The least magnitude that has too many digits to be written one by one. -/
def unwritable : Nat := Nat.pow 10 Text.maxDigits

/-- Has an integer too many digits to be written one by one? -/
def isUnwritable (n : Int) : Bool := decide (unwritable ≤ n.natAbs)

/-- The number as shown in messages and results. -/
def text : Number → String
  | int n => intText n
  | real x => x.toText

/-! ### Arithmetic -/

/-- The number as a real; an integer beyond the range of the reals is too large. -/
def toReal : Number → Except Fault Binary64
  | int n => let x := Binary64.ofInt n; if x.isFinite then .ok x else .error .tooLarge
  | real x => .ok x

/-- Accepts a finite result only. -/
def settle (x : Binary64) : Except Fault Number :=
  if x.isFinite then .ok (real x) else .error .tooLarge

/-- Any result of either kind, if it is finite. -/
def checked : Number → Except Fault Number
  | int n => .ok (int n)
  | real x => settle x

/-- One term of a sum; the total may pass through infinities. -/
def plus (a b : Number) : Except Fault Number :=
  match a, b with
  | int m, int n => .ok (int (m + n))
  | a, b => do return real ((← a.toReal).add (← b.toReal))

/-- The sum of two numbers. -/
def add (a b : Number) : Except Fault Number := do checked (← plus a b)

/-- The difference of two numbers. -/
def sub (a b : Number) : Except Fault Number :=
  match a, b with
  | int m, int n => .ok (int (m - n))
  | a, b => do settle ((← a.toReal).sub (← b.toReal))

/-- The number with the other sign. -/
def neg : Number → Except Fault Number
  | int n => .ok (int (-n))
  | real x => settle x.neg

/-- The product of two numbers. -/
def mul (a b : Number) : Except Fault Number :=
  match a, b with
  | int m, int n => .ok (int (m * n))
  | a, b => do settle ((← a.toReal).mul (← b.toReal))

/-- The number without its sign; nothing is checked. -/
def abs : Number → Number
  | int n => int n.natAbs
  | real x => real x.abs

/-- The quotient of two integers: an integer if there is one, else the nearest real. -/
def divInt (a b : Int) : Except Fault Number :=
  if b = 0 then .error .zeroDivision
  else if a % b = 0 then .ok (int (a / b))
  else settle (.roundRatio (decide (a < 0) ^^ decide (b < 0)) a.natAbs b.natAbs)

/-- The quotient of two numbers. An operand too large for a real is noticed before a zero divisor. -/
def div (a b : Number) : Except Fault Number :=
  match a, b with
  | int m, int n => divInt m n
  | a, b => do
    let x ← a.toReal
    let y ← b.toReal
    if y.isZero then .error .zeroDivision else settle (x.div y)

/-- Integer powers that would surely need more bits than this are refused. -/
def maxPowerBits : Nat := 1 <<< 20

/-- An integer to a natural power. A magnitude of at most one never grows, so any exponent will do;
    otherwise the result has about `exponent` times the bits of the base. -/
def powNat (base : Int) (exponent : Nat) : Except Fault Number :=
  if exponent = 0 then .ok (int 1)
  else if base.natAbs ≤ 1 then .ok (int (if exponent % 2 = 0 then base.natAbs else base))
  else if maxPowerBits < base.natAbs.log2 * exponent then .error .tooLarge
  else .ok (int (base.pow exponent))

/-- A real to a real power, by the given power function. -/
def powReal (general : Binary64.PowerFunction) (base exponent : Binary64) : Except Fault Number :=
  match base.power general exponent with
  | .ok r => settle r
  | .error .zeroBase => .error .zeroDivision
  | .error .tooLarge => .error .tooLarge
  | .error .notReal => .error .notReal

/-- `base ^ exponent`; exact for integers and a natural exponent, else taken in reals. -/
def powWith (general : Binary64.PowerFunction) (base exponent : Number) : Except Fault Number :=
  match base, exponent with
  | int b, int (.ofNat e) => powNat b e
  | a, b => do powReal general (← a.toReal) (← b.toReal)

/-- `base ^ exponent`, by the power function of the system. -/
def pow (base exponent : Number) : Except Fault Number := powWith Binary64.systemPower base exponent

end Number

end DiceNotation
