import DiceNotation.Form.Basic
import DiceNotation.Expr

/-!
What a form stands for: a value, an expression, a function, a statement, a command, or what an error
names. A form that is none of these where one is asked for is kept as an object of another kind.
-/

namespace DiceNotation.Form

mutual

/-- The value that a form stands for. -/
def toValue : Form → Value
  | record .number [f] =>
    match Scalar.ofForm? f with
    | some c => .numberOf c
    | none => .stray (.foreign (record .number [f]))
  | record .text [f] =>
    match Scalar.ofForm? f with
    | some c => .textOf c
    | none => .stray (.foreign (record .text [f]))
  | record .list [tuple fs] => .list (toValues fs)
  | f => .stray (.foreign f)

/-- The values that forms stand for. -/
def toValues : List Form → List Value
  | [] => []
  | f :: fs => f.toValue :: toValues fs

end

mutual

/-- The expression that a form stands for. -/
def toExpr : Form → Expr
  | record .val [v] =>
    if ok : v.toValue.wellFormed = true then .lit v.toValue ok else .foreign (.record .val)
  | record .listExpr [tuple items] => .list (toExprs items)
  | record .range _ => .range
  | record .var [ident] => .var ident.shown
  | record .call [ident, tuple args] => .call ident.shown (toExprs args)
  | record .op [symbol (.infixOp o), l, r] =>
    let left := match l with
      | absent => none
      | l => some l.toExpr
    let right := match r with
      | absent => none
      | r => some r.toExpr
    .op o left right
  | record .filter _ => .filter
  | f => .foreign f.kind

/-- The expressions that forms stand for. -/
def toExprs : List Form → List Expr
  | [] => []
  | f :: fs => f.toExpr :: toExprs fs

end

/-- The function that a form stands for. -/
def function? : Form → Option Function
  | record .function [tuple params, body] => some ⟨params.map shown, body.toExpr⟩
  | _ => none

/-- The statement that a form stands for. The definition of something that is no function is not built
    (`check`). -/
def toStmt (f : Form) : Stmt :=
  match f with
  | record .assign [ident, e] => .assign ident.shown e.toExpr
  | record .define [ident, g] =>
    match g.function? with
    | some g => .define ident.shown g
    | none => .foreign f.kind
  | record .delete [ident] => .delete ident.shown
  | record .clear [] => .clear
  | record .run [path p] => .run p
  | record .save [path p] => .save p
  | record .stmt [] => .bare
  | f => .foreign f.kind

/-- The command that a form stands for. -/
def toCommand : Form → Command
  | record .statement [s] => .statement s.toStmt
  | record .expression [e] => .expression e.toExpr
  | f => .foreign f.kind

/-- What an error names by a form: a number by what it holds, all else as it is. -/
def toSubject : Form → Form
  | record .number [f] => f
  | f => f

end DiceNotation.Form
