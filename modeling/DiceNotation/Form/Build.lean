import DiceNotation.Form.Reading

/-!
Building forms, bottom up.

`build` takes the fields of a record by name, fills in defaults and refuses what the kind does not
accept: a literal of something that is no value, an operator that is none, a command around something
other than a statement or an expression. A definition of something that is no function is refused as
well, so no statement has to be made of one (`exists_define_of_check`).
-/

namespace DiceNotation

namespace Form

/-- The items of what can stand for a sequence: a sequence, the characters of a text, the items of
    a list value. -/
def toTuple : Form → Outcome Form
  | sequence fs => .ok (tuple fs)
  | tuple fs => .ok (tuple fs)
  | text s => .ok (tuple (s.toList.map fun c => text c.toString))
  | record .list [tuple fs] => .ok (tuple fs)
  | _ => .error (.defect .wrongType)

/-- A path in normal form. -/
def toPath : Form → Outcome Form
  | text s => .ok (path (.ofText s))
  | path p => .ok (path p)
  | _ => .error (.defect .wrongType)

/-- Refuses a form that is not what its place asks for, if the form can be spelled out. -/
def refuse (f : Form) (asked : String) : Outcome Form :=
  if f.writable then fail (.malformed (f.written ++ " is not " ++ asked))
  else .error (.defect .wrongValue)

/-- A record whose fields are all there, brought to normal form or refused. -/
def check (kind : RecordKind) (fields : List Form) : Outcome Form :=
  match kind, fields with
  | .list, [items] => do return record .list [← items.toTuple]
  | .listExpr, [items] => do return record .listExpr [← items.toTuple]
  | .call, [ident, args] => do return record .call [ident, ← args.toTuple]
  | .function, [params, body] => do return record .function [← params.toTuple, body]
  | .define, [ident, g] =>
    if g.function?.isSome then .ok (record .define [ident, g])
    else .error (.defect .wrongType)
  | .run, [p] => do return record .run [← p.toPath]
  | .save, [p] => do return record .save [← p.toPath]
  | .val, [v] =>
    if v.toValue.wellFormed then .ok (record .val [v])
    else v.refuse "a value"
  | .op, [o, l, r] =>
    match o with
    | symbol (.infixOp _) => .ok (record .op [o, l, r])
    | o => o.refuse "an infix operator"
  | .statement, [s] =>
    if s.isStmt then .ok (record .statement [s])
    else fail (.malformed (s.kind.name ++ " is not a statement"))
  | .expression, [e] =>
    if e.isExpr then .ok (record .expression [e])
    else fail (.malformed (e.kind.name ++ " is not an expression"))
  | k, fs => .ok (record k fs)

/-- Builds a record from the fields given by name; a field that is not given has its default. -/
def build (kind : RecordKind) (given : List (String × Form)) : Outcome Form := do
  if given.any fun g => !(fieldsOf kind).any fun f => f.1 == g.1 then
    .error (.defect .wrongType)
  else
    let fields ← (fieldsOf kind).mapM fun f =>
      match given.lookup f.1, f.2 with
      | some g, _ => .ok g
      | none, some byDefault => .ok byDefault
      | none, none => .error (.defect .wrongType)
    check kind fields

/-- What is built as a definition stands for the definition of a function. -/
theorem exists_define_of_check {ident g built : Form} (h : check .define [ident, g] = .ok built) :
    ∃ f, g.function? = some f ∧ built.toStmt = .define ident.shown f := by
  rw [check] at h
  split at h
  case isTrue given =>
    cases h
    obtain ⟨f, hf⟩ := Option.isSome_iff_exists.mp given
    exact ⟨f, hf, by rw [toStmt, hf]⟩
  case isFalse => cases h

end Form

end DiceNotation
