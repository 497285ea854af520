import DiceNotation.Kind
import DiceNotation.Number
import DiceNotation.Path

/-!
Forms: trees as an outside builder hands them over, before any part has proved to be what its place
asks for.

A form is a plain datum or a record of a kind with its fields in order. Values, and whatever an
error names, are handed back as forms too. Forms can be compared (`same`). Two bare records are never
the same, for they have no fields to agree on.
-/

namespace DiceNotation

/-- A form. -/
inductive Form where
  | absent
  | flag (b : Bool)
  | int (n : Int)
  | real (x : Binary64)
  | text (s : String)
  | symbol (s : Symbol)
  | path (p : Path)
  | sequence (items : List Form)
  | tuple (items : List Form)
  | record (kind : RecordKind) (fields : List Form)

namespace Form

instance : Inhabited Form := ⟨absent⟩
instance : Coe String Form := ⟨text⟩
instance : Coe InfixOp Form := ⟨fun o => symbol (.infixOp o)⟩
instance : Coe ValueType Form := ⟨fun t => symbol (.valueType t)⟩
instance : Coe Side Form := ⟨fun s => symbol (.side s)⟩

/-- The fields of a kind of records in order, with the defaults of those that have one. -/
def fieldsOf : RecordKind → List (String × Option Form)
  | .number | .text | .val => [("value", none)]
  | .list | .listExpr => [("items", some (tuple []))]
  | .expr | .stmt | .pred | .clear => []
  | .range => [("start", none), ("end", none), ("step", some absent)]
  | .var | .delete => [("ident", none)]
  | .call => [("ident", none), ("args", some (tuple []))]
  | .op => [("op", none), ("left", some absent), ("right", some absent)]
  | .filter => [("source", none), ("pred", none)]
  | .index | .expression => [("expr", none)]
  | .compare => [("op", none), ("right", none)]
  | .connect => [("op", none), ("right", none), ("left", some absent)]
  | .listPred => [("inner", some absent)]
  | .function => [("params", none), ("body", none)]
  | .assign => [("ident", none), ("expr", none)]
  | .define => [("ident", none), ("fun", none)]
  | .run | .save => [("path", none)]
  | .statement => [("stmt", none)]
  | .lexeme => [("kind", none), ("text", some (Form.text "")), ("position", some absent)]

/-- The kind of a form. -/
def kind : Form → Kind
  | absent => .absent
  | flag _ => .flag
  | int _ => .int
  | real _ => .real
  | text _ => .text
  | symbol s => .symbol s.family
  | path _ => .path
  | sequence _ => .sequence
  | tuple _ => .tuple
  | record k _ => .record k

/-- Does the form count as not given: nothing, a false truth value, zero, or something empty? A text
    as a value is given even if empty. -/
def isBlank : Form → Bool
  | absent => true
  | flag b => !b
  | int n => n == 0
  | real x => x.isZero
  | text s => s.isEmpty
  | sequence fs => fs.isEmpty
  | tuple fs => fs.isEmpty
  | record .list [tuple fs] => fs.isEmpty
  | _ => false

/-- An expression of whatever form. -/
def isExpr : Form → Bool
  | record k _ => k.isExpr
  | _ => false

/-- A statement of whatever form. -/
def isStmt : Form → Bool
  | record k _ => k.isStmt
  | _ => false

/-! ### Sameness -/

/-- The number that a plain datum is; truth values are 0 and 1. -/
def number? : Form → Option Number
  | flag b => some (.int b.toNat)
  | int n => some (.int n)
  | real x => some (.real x)
  | _ => none

mutual

/-- Are two forms equal in kind and content? Numbers are compared by value. -/
def same : Form → Form → Bool
  | absent, absent => true
  | text s, text t => s == t
  | symbol s, symbol t => s == t
  | path p, path q => p == q
  | sequence fs, sequence gs => sameAll fs gs
  | tuple fs, tuple gs => sameAll fs gs
  | record k fs, record l gs => k == l && !k.isBare && sameAll fs gs
  | f, g =>
    match f.number?, g.number? with
    | some m, some n => m.same n
    | _, _ => false

/-- Are the forms equal one by one? -/
def sameAll : List Form → List Form → Bool
  | [], [] => true
  | f :: fs, g :: gs => f.same g && sameAll fs gs
  | _, _ => false

end

end Form

end DiceNotation
