import DiceNotation.Form.Text

/-!
Errors of the notation, and failures in general.

An `Error` is a cause with the forms it names: an operator, a type, an identifier, a number, or
whatever an outside builder gives. Its message, its description and its tier follow from the cause.
An error is only raised if its message can be written. A `Failure` is an error or a defect.
-/

namespace DiceNotation

/-- The causes of failure. The first three are general ones with a message of their own; the next
    seven arise while a command is built, the rest while one is evaluated. -/
inductive Error where
  | general (message : Form)
  | building (message : Form)
  | evaluating (message : Form)
  | unexpectedToken (token : Form)
  | invalidFunctionCall
  | unexpectedEnd
  | malformed (detail : Form)
  | emptyCommand
  | tooManyParameters
  | unsupported
  | missingOperand (op side : Form)
  | noOperands (op : Form)
  | typeMismatch (expected found : Form)
  | negativeArgument (value : Form)
  | undefinedIdentifier (name : Form)
  | arityMismatch (name expected found : Form)
  | divisionByZero (op : Form)
  | invalidOperation (op detail : Form)
  | unimplemented (feature : Form)

/-- Errors arise while a command is built or while it is evaluated; the general one is of neither
    tier. -/
inductive Tier where
  | base
  | building
  | evaluation
  deriving DecidableEq

namespace Error

/-- The tier of an error. -/
def tier : Error → Tier
  | general _ => .base
  | building _ | unexpectedToken _ | invalidFunctionCall | unexpectedEnd | malformed _
  | emptyCommand | tooManyParameters | unsupported => .building
  | evaluating _ | missingOperand .. | noOperands _ | typeMismatch .. | negativeArgument _
  | undefinedIdentifier _ | arityMismatch .. | divisionByZero _ | invalidOperation ..
  | unimplemented _ => .evaluation

/-- A short description that is the same for every error of a kind. -/
def description : Error → String
  | general _ => "roller error"
  | building _ => "syntax error"
  | evaluating _ => "evaluation error"
  | unexpectedToken _ => "unexpected token"
  | invalidFunctionCall => "invalid function call"
  | unexpectedEnd => "unexpected end of input"
  | malformed _ => "tried to create a malformed command"
  | emptyCommand => "tried to create an empty command"
  | tooManyParameters => "too many parameters"
  | unsupported => "unimplemented feature"
  | missingOperand .. => "missing operand"
  | noOperands _ => "no operands"
  | typeMismatch .. => "type mismatch"
  | negativeArgument _ => "expected a non-negative number"
  | undefinedIdentifier _ => "undefined identifier"
  | arityMismatch .. => "wrong number of arguments"
  | divisionByZero _ => "division by zero"
  | invalidOperation .. => "invalid operation"
  | unimplemented _ => "unimplemented feature"

/-- A statement of the cause, with the detail after a colon if one is given. -/
def withDetail (cause : String) (detail : Form) : String :=
  if detail.isBlank then cause else cause ++ ": " ++ detail.shown

/-- The text of an argument; an integer that is too wide is summarised. -/
def argumentText : Form → String
  | .int n => Number.intText n
  | f => f.shown

/-- The message of an error. -/
def message (e : Error) : String :=
  match e with
  | general m | building m | evaluating m => if m.isBlank then e.description else m.shown
  | unexpectedToken t => "Unexpected token: " ++ t.shown
  | invalidFunctionCall => "Invalid function call"
  | unexpectedEnd => "Unexpected end of input"
  | malformed d => withDetail "Tried to create a malformed command" d
  | emptyCommand => "Tried to create an empty command"
  | tooManyParameters => "Too many parameters"
  | unsupported => "Unimplemented feature"
  | missingOperand op side =>
    "Missing " ++ side.shown ++ " operand for operator '" ++ op.shown ++ "'"
  | noOperands op => "No operands given to operator '" ++ op.shown ++ "'"
  | typeMismatch expected found =>
    "Expected a value of type " ++ expected.shown ++ ", found " ++ found.shown
  | negativeArgument v => "Expected a non-negative number, found " ++ argumentText v
  | undefinedIdentifier name => "Undefined identifier '" ++ name.shown ++ "'"
  | arityMismatch name expected found =>
    "Function '" ++ name.shown ++ "' expects " ++ expected.shown ++ " argument(s), got " ++
      found.shown
  | divisionByZero op => "Division by zero in operator '" ++ op.shown ++ "'"
  | invalidOperation op d => "Invalid operation '" ++ op.shown ++ "': " ++ d.shown
  | unimplemented f => withDetail "Unimplemented feature" f

/-- The forms that the message of an error mentions, in its order. An integer argument is always
    shown, for it is summarised if need be. -/
def mentions : Error → List Form
  | general m | building m | evaluating m => [m]
  | unexpectedToken t => [t]
  | malformed d => [d]
  | missingOperand op side => [side, op]
  | noOperands op => [op]
  | typeMismatch expected found => [expected, found]
  | negativeArgument (.int _) => []
  | negativeArgument v => [v]
  | undefinedIdentifier name => [name]
  | arityMismatch name expected found => [name, expected, found]
  | divisionByZero op => [op]
  | invalidOperation op d => [op, d]
  | unimplemented f => [f]
  | invalidFunctionCall | unexpectedEnd | emptyCommand | tooManyParameters | unsupported => []

/-- What keeps the message of an error from being written, if anything does. -/
def defect? (e : Error) : Option Defect := Form.firstDefect? e.mentions

end Error

/-- An error of the notation, or a defect. -/
inductive Failure where
  | error (e : Error)
  | defect (d : Defect)

/-- A result, or the failure that prevents it. -/
abbrev Outcome (α : Type) := Except Failure α

/-- Fails with an error of the notation. -/
def fail {α : Type} (e : Error) : Outcome α := .error (.error e)

end DiceNotation
