import DiceNotation.Symbol

/-!
The kinds of objects that trees are made of.

Records have the kinds of the notation: values, expressions, predicates, functions, statements,
commands and lexemes. Everything else is plain data, a symbol, a path or a sequence. A message about
an object in the wrong place calls it by the name of its kind.
-/

namespace DiceNotation

/-- The kinds of records. -/
inductive RecordKind where
  | number | text | list
  | expr | stmt | pred
  | val | listExpr | range | var | call | op | filter
  | index | compare | connect | listPred
  | function
  | assign | define | delete | clear | run | save
  | statement | expression
  | lexeme
  deriving DecidableEq

namespace RecordKind

/-- All kinds. -/
def all : List RecordKind :=
  [number, text, list, expr, stmt, pred, val, listExpr, range, var, call, op, filter, index,
   compare, connect, listPred, function, assign, define, delete, clear, run, save, statement,
   expression, lexeme]

/-- The name of a kind of records. -/
def name : RecordKind → String
  | number => "VNumber" | text => "VText" | list => "VList"
  | expr => "Expr" | stmt => "Stmt" | pred => "Pred"
  | val => "Val" | listExpr => "ListExpr" | range => "Range" | var => "Var" | call => "FunCall"
  | op => "Op" | filter => "Filter"
  | index => "Index" | compare => "Cmp" | connect => "LogConn" | listPred => "ListPred"
  | function => "RollerFun"
  | assign => "Assign" | define => "FnDef" | delete => "Delete" | clear => "Clear"
  | run => "Run" | save => "Save"
  | statement => "Statement" | expression => "Expression"
  | lexeme => "Lexeme"

/-- The kind with the given name. -/
def named? (name : String) : Option RecordKind := all.find? (·.name == name)

/-- Is a record of the kind an expression? -/
def isExpr : RecordKind → Bool
  | expr | val | listExpr | range | var | call | op | filter => true
  | _ => false

/-- Is a record of the kind a statement? -/
def isStmt : RecordKind → Bool
  | stmt | assign | define | delete | clear | run | save => true
  | _ => false

/-- Is the kind one without a form of its own? -/
def isBare : RecordKind → Bool
  | expr | stmt | pred => true
  | _ => false

end RecordKind

/-- The kinds of objects. -/
inductive Kind where
  | absent | flag | int | real | text
  | symbol (family : Symbol.Family)
  | path | sequence | tuple
  | record (kind : RecordKind)
  deriving DecidableEq

/-- The name of a kind. -/
def Kind.name : Kind → String
  | absent => "NoneType"
  | flag => "bool"
  | int => "int"
  | real => "float"
  | text => "str"
  | symbol f => f.name
  | path => "PurePosixPath"
  | sequence => "list"
  | tuple => "tuple"
  | record k => k.name

end DiceNotation
