import DiceNotation.Env
import DiceNotation.Dice.Roll

/-!
Records of what happens while commands run.

Every command, roll, change of the environment and failure within a run leaves one record, of a
level and on a channel, with a text of one line as long as names and values have one.
-/

namespace DiceNotation

/-- A record. -/
inductive Record where
  | statement (kind : Kind)
  | expression (kind : Kind)
  | rolled (roll : Roll)
  | changed (m : Mutation)
  | failed (message : String)

namespace Record

/-- How much a record matters. -/
inductive Level where
  | debug
  | info
  deriving DecidableEq

/-- The level as it is written. -/
def Level.name : Level → String
  | debug => "DEBUG"
  | info => "INFO"

/-- The level of a record. -/
def level : Record → Level
  | failed _ => .info
  | _ => .debug

/-- The part of the library that a record comes from. -/
def channel : Record → String
  | statement _ | expression _ => "evaluator"
  | rolled _ | changed _ => "environment"
  | failed _ => "session"

/-- A roll as text: what was asked for, and the faces. -/
def rollText (r : Roll) : String :=
  "rolled " ++ toString r.count ++ "d" ++ toString r.sides ++ " -> [" ++
    ", ".intercalate (r.faces.map fun n => toString n) ++ "]"

/-- A change of the environment as text. -/
def mutationText : Mutation → String
  | .assign name v => "assigned " ++ name ++ " = " ++ v.shown
  | .declare name f => "declared function " ++ name ++ "(" ++ ", ".intercalate f.params ++ ")"
  | .delete name => "deleted " ++ name
  | .clear => "environment cleared"

/-- The text of a record. -/
def text : Record → String
  | statement kind => "statement " ++ kind.name
  | expression kind => "expression " ++ kind.name
  | rolled r => rollText r
  | changed m => mutationText m
  | failed message => "command failed: " ++ message

/-- What keeps the text of a record from being written, if anything does. -/
def defect? : Record → Option Defect
  | rolled r => Form.firstDefect? (.int r.count :: .int r.sides :: r.faces.map fun n => .int n)
  | changed (.assign _ v) => v.defect?
  | _ => none

end Record

end DiceNotation
