import DiceNotation.Error

/-!
Scalars: what a number or a text can hold.

A number should hold a number and a text a text, but either may have been handed over with another
scalar in it. A truth value counts as 0 or 1 wherever a number is asked for; a text and nothing at
all do not count as numbers.
-/

namespace DiceNotation

/-- A scalar. -/
inductive Scalar where
  | absent
  | flag (b : Bool)
  | number (n : Number)
  | text (s : String)
  deriving DecidableEq

namespace Scalar

/-- The number that a scalar counts as. -/
def number? : Scalar → Option Number
  | flag b => some (.int b.toNat)
  | number n => some n
  | _ => none

/-- The integer that a scalar counts as. -/
def int? : Scalar → Option Int
  | flag b => some b.toNat
  | number (.int n) => some n
  | _ => none

/-- Is the scalar a text? -/
def isText : Scalar → Bool
  | text _ => true
  | _ => false

/-- The number that a scalar counts as; one that is none has no part in arithmetic. -/
def expectNumber (c : Scalar) : Outcome Number :=
  match c.number? with
  | some n => .ok n
  | none => .error (.defect .wrongType)

/-- The integer that a scalar stands for: a real loses its fraction, a text is read. -/
def toInt : Scalar → Outcome Int
  | absent => .error (.defect .wrongType)
  | flag b => .ok b.toNat
  | number (.int n) => .ok n
  | number (.real x) => match x.truncate? with
    | some n => .ok n
    | none => .error (.defect (if x = .nan then .wrongValue else .overflow))
  | text s => match Text.readInt? s with
    | some n => .ok n
    | none => .error (.defect .wrongValue)

/-! ### Order -/

/-- Does a text stand before another in the order of code points? -/
def precedes : List Char → List Char → Bool
  | _, [] => false
  | [], _ :: _ => true
  | c :: cs, d :: ds => c.toNat < d.toNat || (c == d && precedes cs ds)

/-- Strictly less: numbers by value, texts by their characters. -/
def lt : Scalar → Scalar → Bool
  | text s, text t => precedes s.toList t.toList
  | a, b => match a.number?, b.number? with
    | some m, some n => m.lt n
    | _, _ => false

/-- Can the scalars be compared with one another? A single one needs no comparison. -/
def comparable (cs : List Scalar) : Bool :=
  cs.length ≤ 1 || cs.all (·.number?.isSome) || cs.all isText

/-! ### Forms -/

/-- The scalar as a form. -/
def toForm : Scalar → Form
  | absent => .absent
  | flag b => .flag b
  | number (.int n) => .int n
  | number (.real x) => .real x
  | text s => .text s

/-- The scalar that a form is. -/
def ofForm? : Form → Option Scalar
  | .absent => some absent
  | .flag b => some (flag b)
  | .int n => some (number (.int n))
  | .real x => some (number (.real x))
  | .text s => some (text s)
  | _ => none

end Scalar

end DiceNotation
