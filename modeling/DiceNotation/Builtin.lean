import DiceNotation.Arithmetic

/-!
The functions that every environment starts with.

`sum`, `max` and `min` take numbers and lists of numbers, flattened by one level. The extreme they
find is the first one, and `sort` keeps the order of equal items; numbers of both kinds are compared
exactly. Whether all items are numbers is settled before anything is made of what they hold.
-/

namespace DiceNotation

/-- The built-in functions. -/
inductive Builtin where
  | sum | len | max | min | abs | sort
  deriving DecidableEq

namespace Builtin

/-- The function's own name, which its errors use. -/
def name : Builtin → String
  | sum => "sum" | len => "len" | max => "max" | min => "min" | abs => "abs" | sort => "sort"

/-- All built-in functions. -/
def all : List Builtin := [sum, len, max, min, abs, sort]

/-- The function with the given name. -/
def named? (name : String) : Option Builtin := all.find? (·.name == name)

/-- The items of the lists among the arguments, and the other arguments themselves. -/
def flatten (args : List Value) : List Value :=
  args.flatMap fun
    | .list vs => vs
    | v => [v]

/-- Every value with what it holds. All must be numbers, and then such that they can be compared. -/
def keyed (vs : List Value) : Outcome (List (Value × Scalar)) := do
  let items ← vs.mapM fun v => do return (v, ← v.content)
  if Scalar.comparable (items.map (·.2)) then .ok items else .error (.defect .wrongType)

/-- The only argument of a function, or a mismatch in their number. -/
def expectOne (f : Builtin) : List Value → Outcome Value
  | [v] => .ok v
  | args => fail (.arityMismatch f.name (.int 1) (.int args.length))

/-- The first item that no later one beats. -/
def extreme (beats : Scalar → Scalar → Bool) (first : Value × Scalar)
    (rest : List (Value × Scalar)) : Value × Scalar :=
  rest.foldl (fun best x => if beats x.2 best.2 then x else best) first

/-- The first extreme of the numbers among the arguments. -/
def extremeOf (f : Builtin) (beats : Scalar → Scalar → Bool) (args : List Value) :
    Outcome Value := do
  match ← keyed (flatten args) with
  | [] => fail (.invalidOperation f.name "no values given")
  | x :: xs => return (extreme beats x xs).1

/-- The sum so far with one more number added. -/
def addTo (total : Number) (c : Scalar) : Outcome Number := do
  match Number.plus total (← c.expectNumber) with
  | .ok n => .ok n
  | .error _ => fail (.invalidOperation sum.name "result is too large")

/-- The sum of the numbers among the arguments. -/
def sumOf (args : List Value) : Outcome Value := do
  let cs ← (flatten args).mapM Value.content
  match ← cs.foldlM addTo (.int 0) with
  | .int n => return .int n
  | .real x =>
    if x.isFinite then return .real x
    else fail (.invalidOperation sum.name "result is too large")

/-- The number of items of a list, or of characters of a text. -/
def lenOf : Value → Outcome Value
  | .list vs => .ok (.int vs.length)
  | .text s => .ok (.int s.length)
  | .stray (.text _) => .error (.defect .wrongType)
  | v => do fail (.typeMismatch ValueType.list (← v.type?))

/-- A number without its sign. -/
def absOf (v : Value) : Outcome Value := do return .numberOf (← (← v.content).abs)

/-- Is the first of two items allowed to stand before the second? -/
def notAfter (x y : Value × Scalar) : Bool := !y.2.lt x.2

/-- The items of a list of numbers in ascending order. -/
def sortOf : Value → Outcome Value
  | .list vs => do return .list (((← keyed vs).mergeSort notAfter).map (·.1))
  | v => do fail (.typeMismatch ValueType.list (← v.type?))

/-- Applies a function to arguments. -/
def apply (f : Builtin) (args : List Value) : Outcome Value :=
  match f with
  | sum => sumOf args
  | len => do lenOf (← expectOne f args)
  | max => extremeOf f (fun x best => best.lt x) args
  | min => extremeOf f (fun x best => x.lt best) args
  | abs => do absOf (← expectOne f args)
  | sort => do sortOf (← expectOne f args)

end Builtin

end DiceNotation
