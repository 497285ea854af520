import DiceNotation.Path
import DiceNotation.Value

/-!
The trees of the notation: expressions, functions, statements and commands.

An expression gives a value and changes nothing; a statement changes the environment and gives
nothing. A literal holds a well-formed value. Where a tree was built with an object of another kind
in the place of a part, the part is `foreign` and only the object's kind is kept. Ranges and filters
have no evaluation rule, so their parts are not kept either.
-/

namespace DiceNotation

/-- An expression. Either operand of an operator may be absent. -/
inductive Expr where
  | lit (v : Value) (ok : v.wellFormed = true)
  | list (items : List Expr)
  | var (name : String)
  | call (name : String) (args : List Expr)
  | op (op : InfixOp) (left right : Option Expr)
  | range
  | filter
  | foreign (kind : Kind)

/-- A user function: its parameters and its body. A parameter may be named twice. -/
structure Function where
  params : List String
  body : Expr

/-- The number of arguments a function takes. -/
def Function.arity (f : Function) : Nat := f.params.length

/-- A statement; `bare` is one of no particular form. -/
inductive Stmt where
  | assign (name : String) (e : Expr)
  | define (name : String) (f : Function)
  | delete (name : String)
  | clear
  | run (path : Path)
  | save (path : Path)
  | bare
  | foreign (kind : Kind)

/-- A command. -/
inductive Command where
  | statement (s : Stmt)
  | expression (e : Expr)
  | foreign (kind : Kind)

/-- The kind of an expression. -/
def Expr.kind : Expr → Kind
  | lit .. => .record .val
  | list _ => .record .listExpr
  | var _ => .record .var
  | call .. => .record .call
  | op .. => .record .op
  | range => .record .range
  | filter => .record .filter
  | foreign k => k

/-- The kind of a statement. -/
def Stmt.kind : Stmt → Kind
  | assign .. => .record .assign
  | define .. => .record .define
  | delete _ => .record .delete
  | clear => .record .clear
  | run _ => .record .run
  | save _ => .record .save
  | bare => .record .stmt
  | foreign k => k

end DiceNotation
