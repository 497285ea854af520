/-!
The closed sets of symbols: operators, value types, sides of an operator, kinds of lexemes.

Every symbol has a name, the text it is shown with, and a family; a family lists its members in
their fixed order.
-/

namespace DiceNotation

/-- The operators of expressions. -/
inductive InfixOp where
  | dice | plus | minus | mul | div | pow
  deriving DecidableEq

/-- The comparisons a filter may use. -/
inductive Comparison where
  | equal | different | greater | less | greaterOrEqual | lessOrEqual
  deriving DecidableEq

/-- The connectives of predicates. -/
inductive Connective where
  | both | either | oneOf | negation
  deriving DecidableEq

/-- The types of values. -/
inductive ValueType where
  | int | real | list | text
  deriving DecidableEq

/-- The operand positions of an operator. -/
inductive Side where
  | left | right
  deriving DecidableEq

/-- The kinds of lexemes a tokenizer hands over. -/
inductive LexemeKind where
  | number | ident | operator | comparison | keyword | openParen | closeParen | openBracket
  | closeBracket | openBrace | closeBrace | comma | assign | finish
  deriving DecidableEq

/-- A symbol of any family. -/
inductive Symbol where
  | infixOp (op : InfixOp)
  | comparison (op : Comparison)
  | connective (op : Connective)
  | valueType (type : ValueType)
  | side (side : Side)
  | lexemeKind (kind : LexemeKind)
  deriving DecidableEq

namespace InfixOp

/-- The name of the operator. -/
def name : InfixOp → String
  | dice => "DICE" | plus => "PLUS" | minus => "MINUS" | mul => "MUL" | div => "DIV" | pow => "POW"

/-- The operator as it is written between its operands. -/
def shown : InfixOp → String
  | dice => "d" | plus => "+" | minus => "-" | mul => "*" | div => "/" | pow => "^"

/-- All operators. -/
def all : List InfixOp := [dice, plus, minus, mul, div, pow]

end InfixOp

namespace Comparison

/-- The name of the comparison. -/
def name : Comparison → String
  | equal => "EQ" | different => "INEQ" | greater => "GT" | less => "LT"
  | greaterOrEqual => "GTEQ" | lessOrEqual => "LTEQ"

/-- The comparison as it is written. -/
def shown : Comparison → String
  | equal => "==" | different => "!=" | greater => ">" | less => "<"
  | greaterOrEqual => ">=" | lessOrEqual => "<="

/-- All comparisons. -/
def all : List Comparison := [equal, different, greater, less, greaterOrEqual, lessOrEqual]

end Comparison

namespace Connective

/-- The name of the connective. -/
def name : Connective → String
  | both => "AND" | either => "OR" | oneOf => "XOR" | negation => "NOT"

/-- The connective as it is written. -/
def shown : Connective → String
  | both => "and" | either => "or" | oneOf => "xor" | negation => "not"

/-- All connectives. -/
def all : List Connective := [both, either, oneOf, negation]

end Connective

namespace ValueType

/-- The name of the type. -/
def name : ValueType → String
  | int => "NUM_INT" | real => "NUM_REAL" | list => "LIST" | text => "TEXT"

/-- The type as messages call it. -/
def shown : ValueType → String
  | int => "int" | real => "real" | list => "list" | text => "text"

/-- All types. -/
def all : List ValueType := [int, real, list, text]

end ValueType

namespace Side

/-- The name of the side. -/
def name : Side → String
  | left => "LEFT" | right => "RIGHT"

/-- The side as messages call it. -/
def shown : Side → String
  | left => "left" | right => "right"

/-- Both sides. -/
def all : List Side := [left, right]

end Side

namespace LexemeKind

/-- The name of the kind. -/
def name : LexemeKind → String
  | number => "NUMBER" | ident => "IDENT" | operator => "OPERATOR"
  | comparison => "CMP_OPERATOR" | keyword => "KEYWORD"
  | openParen => "OPEN_PAREN" | closeParen => "CLOSE_PAREN"
  | openBracket => "OPEN_BRACKET" | closeBracket => "CLOSE_BRACKET"
  | openBrace => "OPEN_BRACE" | closeBrace => "CLOSE_BRACE"
  | comma => "COMMA" | assign => "ASSIGN" | finish => "END"

/-- All kinds; a kind's number is its place here, counted from one. -/
def all : List LexemeKind :=
  [number, ident, operator, comparison, keyword, openParen, closeParen, openBracket, closeBracket,
   openBrace, closeBrace, comma, assign, finish]

/-- The place of the kind among all kinds. -/
def ordinal (k : LexemeKind) : Nat := all.idxOf k + 1

end LexemeKind

namespace Symbol

/-- The families of symbols. -/
inductive Family where
  | infixOp | comparison | connective | valueType | side | lexemeKind
  deriving DecidableEq

/-- The family's name. -/
def Family.name : Family → String
  | infixOp => "InfixOp" | comparison => "CmpOp" | connective => "LogConnOp"
  | valueType => "RollerType" | side => "Side" | lexemeKind => "LexemeKind"

/-- All families. -/
def Family.all : List Family := [infixOp, comparison, connective, valueType, side, lexemeKind]

/-- The members of a family in order. -/
def Family.members : Family → List Symbol
  | infixOp => InfixOp.all.map .infixOp
  | comparison => Comparison.all.map .comparison
  | connective => Connective.all.map .connective
  | valueType => ValueType.all.map .valueType
  | side => Side.all.map .side
  | lexemeKind => LexemeKind.all.map .lexemeKind

/-- The family of a symbol. -/
def family : Symbol → Family
  | infixOp _ => .infixOp
  | comparison _ => .comparison
  | connective _ => .connective
  | valueType _ => .valueType
  | side _ => .side
  | lexemeKind _ => .lexemeKind

/-- The name of a symbol. -/
def name : Symbol → String
  | infixOp o => o.name
  | comparison o => o.name
  | connective o => o.name
  | valueType t => t.name
  | side s => s.name
  | lexemeKind k => k.name

/-- The text a symbol is shown with; a lexeme kind has none but its full name. -/
def shown : Symbol → String
  | infixOp o => o.shown
  | comparison o => o.shown
  | connective o => o.shown
  | valueType t => t.shown
  | side s => s.shown
  | lexemeKind k => "LexemeKind." ++ k.name

/-- The symbol spelled out with family, name and content. -/
def written (s : Symbol) : String :=
  let content := match s with
    | lexemeKind k => toString k.ordinal
    | s => "'" ++ s.shown ++ "'"
  "<" ++ s.family.name ++ "." ++ s.name ++ ": " ++ content ++ ">"

/-- The member of a family with the given name. -/
def Family.find? (f : Family) (name : String) : Option Symbol :=
  f.members.find? (·.name == name)

/-- The family with the given name. -/
def Family.named? (name : String) : Option Family := Family.all.find? (·.name == name)

end Symbol

end DiceNotation
