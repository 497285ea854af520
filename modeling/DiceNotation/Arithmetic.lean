import DiceNotation.Value

/-!
Arithmetic on values.

A list of numbers used as an operand stands for the sum of its items, so a pool of dice combines
with plain numbers. Only the sum of two lists, or of two texts, joins them instead. The left operand
is reduced to the scalar it holds before the right one, and only then are the scalars combined. A
fault of the numbers becomes an error that names the operator; a text held by a number can be joined
to another or repeated, and nothing else.
-/

namespace DiceNotation

/-- The detail of an error about a result beyond the range. -/
def tooLargeDetail : String := "result is too large"

/-- The detail of an error about a result off the real line. -/
def notRealDetail : String := "result is not a real number"

/-- A fault as an error of the operation it happened in. -/
def Fault.toError (op : Form) : Fault → Error
  | .zeroDivision => .divisionByZero op
  | .tooLarge => .invalidOperation op tooLargeDetail
  | .notReal => .invalidOperation op notRealDetail

/-- The result of an operation, its fault turned into an error. -/
def settleFor {α : Type} (op : Form) : Except Fault α → Outcome α
  | .ok n => .ok n
  | .error f => fail (f.toError op)

namespace Scalar

/-- An operation on numbers as one on scalars. -/
def combine (op : Form) (f : Number → Number → Except Fault Number) (a b : Scalar) :
    Outcome Scalar := do
  let m ← a.expectNumber
  let n ← b.expectNumber
  return number (← settleFor op (f m n))

/-- Adds two scalars; texts are joined. -/
def add : Scalar → Scalar → Outcome Scalar
  | text s, text t => .ok (text (s ++ t))
  | a, b => combine InfixOp.plus Number.add a b

/-- Subtracts two scalars. -/
def sub (a b : Scalar) : Outcome Scalar := combine InfixOp.minus Number.sub a b

/-- Changes the sign of a scalar. -/
def neg (c : Scalar) : Outcome Scalar := do
  return number (← settleFor InfixOp.minus (← c.expectNumber).neg)

/-- Counts of repetitions are below this in magnitude. -/
def countBound : Nat := 1 <<< 63

/-- No text has more characters than this. -/
def maxTextLength : Nat := 1 <<< 40

/-- A text joined to itself the given number of times; a negative number counts as zero. -/
def repeated (s : String) (n : Int) : Except Fault String :=
  if n < -(countBound : Int) ∨ (countBound : Int) ≤ n then .error .tooLarge
  else if s.isEmpty then .ok ""
  else if maxTextLength < s.length * n.toNat then .error .tooLarge
  else .ok (String.join (List.replicate n.toNat s))

/-- A text repeated as often as a scalar says. -/
def repeatedBy (s : String) (c : Scalar) : Outcome Scalar :=
  match c.int? with
  | some n => text <$> settleFor InfixOp.mul (repeated s n)
  | none => .error (.defect .wrongType)

/-- Multiplies two scalars; a text is repeated. -/
def mul : Scalar → Scalar → Outcome Scalar
  | text s, c => repeatedBy s c
  | c, text s => repeatedBy s c
  | a, b => combine InfixOp.mul Number.mul a b

/-- Divides two scalars. -/
def div (a b : Scalar) : Outcome Scalar := combine InfixOp.div Number.div a b

/-- A scalar without its sign. -/
def abs (c : Scalar) : Outcome Scalar := do return number (← c.expectNumber).abs

/-- Adds up from the left, starting at the integer 0. -/
def total (op : Form) (cs : List Scalar) : Outcome Scalar := do
  let sum ← cs.foldlM (fun sum c => do settleFor op (Number.plus sum (← c.expectNumber)))
    (Number.int 0)
  return number (← settleFor op sum.checked)

end Scalar

namespace Value

/-- What a number holds; any other value is mismatched. -/
def content (v : Value) : Outcome Scalar :=
  match v.numberContent? with
  | some c => .ok c
  | none => do fail (.typeMismatch "number" (← v.type?))

/-- What an operand stands for: what a number holds, or the sum of a list of numbers. -/
def operand (op : InfixOp) : Value → Outcome Scalar
  | list vs => do Scalar.total op (← vs.mapM content)
  | v => v.content

/-- An operation on what two operands stand for. -/
def binary (op : InfixOp) (f : Scalar → Scalar → Outcome Scalar) (l r : Value) :
    Outcome Value := do
  let a ← l.operand op
  let b ← r.operand op
  return numberOf (← f a b)

/-- Adds two values; lists and texts are joined. -/
def add : Value → Value → Outcome Value
  | list vs, list ws => .ok (list (vs ++ ws))
  | l, r =>
    match l.textContent?, r.textContent? with
    | some a, some b => do return textOf (← a.add b)
    | _, _ => binary .plus Scalar.add l r

/-- Subtracts two values. -/
def sub (l r : Value) : Outcome Value := binary .minus Scalar.sub l r

/-- Changes the sign of a value. -/
def neg (v : Value) : Outcome Value := do return numberOf (← (← v.operand .minus).neg)

/-- Multiplies two values. -/
def mul (l r : Value) : Outcome Value := binary .mul Scalar.mul l r

/-- Divides two values. -/
def div (l r : Value) : Outcome Value := binary .div Scalar.div l r

/-- Raises a value to a power, by the given power function. -/
def powWith (general : Binary64.PowerFunction) (l r : Value) : Outcome Value :=
  binary .pow (Scalar.combine InfixOp.pow (Number.powWith general)) l r

/-- Raises a value to a power, by the power function of the system. -/
def pow (l r : Value) : Outcome Value := powWith Binary64.systemPower l r

end Value

end DiceNotation
