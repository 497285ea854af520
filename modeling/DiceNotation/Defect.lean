/-!
Defects: failures that are no errors of the notation.

A defect means that something that is no value, a content that no operation is meant for, or an
operation that is never asked for, has reached the library.
-/

namespace DiceNotation

/-- What goes wrong when something other than a value is treated as one. -/
inductive Defect where
  | notValue (written : String)
  | wrongType
  | wrongValue
  | overflow
  | diceOperator
  deriving DecidableEq

/-- What a defect says of itself, if anything. -/
def Defect.message? : Defect → Option String
  | notValue w => some ("not a Roller value: " ++ w)
  | diceOperator => some "dice must be evaluated before operator reduction"
  | _ => none

end DiceNotation
