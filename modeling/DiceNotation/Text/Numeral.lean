import DiceNotation.Text.Blank
import DiceNotation.Text.Digit

/-!
Numerals as they are read.

A numeral may have blanks around it and may use the digits of any script; an underscore may part
two digits. `plain?` takes all of this away, so that the readers of integers and of reals see ASCII
digits only.
-/

namespace DiceNotation.Text

/-- Integers of more digits than this are neither read nor written digit by digit. -/
def maxDigits : Nat := 4300

/-- The characters without the underscores between digits; an underscore elsewhere is refused. -/
def joined? (afterDigit : Bool) : List Char → Option (List Char)
  | [] => some []
  | c :: cs =>
    if c = '_' then
      if afterDigit && cs.head?.any Char.isDigit then joined? false cs else none
    else (joined? c.isDigit cs).map (c :: ·)

/-- A numeral without blanks around and underscores within, its digits those of ASCII. -/
def plain? (s : String) : Option (List Char) := joined? false ((trim s.toList).map plainDigit)

/-- The number that a run of decimal digits stands for. -/
def digitsValue (cs : List Char) : Nat :=
  cs.foldl (fun n c => 10 * n + (c.toNat - '0'.toNat)) 0

/-- Takes an optional sign: is it negative, and what follows. -/
def takeSign : List Char → Bool × List Char
  | '-' :: cs => (true, cs)
  | '+' :: cs => (false, cs)
  | cs => (false, cs)

/-- A magnitude with a sign. -/
def signed (negative : Bool) (n : Nat) : Int := if negative then -(n : Int) else n

/-- Reads an integer: an optional sign and digits. -/
def readInt? (s : String) : Option Int := do
  let (negative, ds) := takeSign (← plain? s)
  if ds.isEmpty || !ds.all Char.isDigit || maxDigits < ds.length then none
  else some (signed negative (digitsValue ds))

end DiceNotation.Text
