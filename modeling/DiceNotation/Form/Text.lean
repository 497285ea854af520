import DiceNotation.Defect
import DiceNotation.Form.Basic

/-!
The texts of forms.

`written` spells a form out with kinds and fields; `shown` is what stands for it in a message. A text
is shown as it is, a symbol by its sign, a value by its content, a lexeme in quotes with its place,
and all else is spelled out. A form with an integer of too many digits cannot be spelled out, and a
text value that holds no text cannot be shown; `writable` and `defect?` tell.
-/

namespace DiceNotation.Form

/-- Parts between parentheses; a single one is followed by a comma. -/
def tupleText : List String → String
  | [part] => "(" ++ part ++ ",)"
  | parts => "(" ++ ", ".intercalate parts ++ ")"

/-- Parts between brackets. -/
def listText (parts : List String) : String := "[" ++ ", ".intercalate parts ++ "]"

/-! ### Spelling out -/

mutual

/-- The form spelled out with kinds and fields. -/
def written : Form → String
  | absent => "None"
  | flag true => "True"
  | flag false => "False"
  | int n => toString n
  | real x => x.toText
  | text s => Text.quoted s
  | symbol s => s.written
  | path p => p.written
  | sequence fs => listText (writtenAll fs)
  | tuple fs => tupleText (writtenAll fs)
  | record k fs =>
    let named := ((fieldsOf k).zip (writtenAll fs)).map fun p => p.1.1 ++ "=" ++ p.2
    k.name ++ "(" ++ ", ".intercalate named ++ ")"

/-- The forms spelled out. -/
def writtenAll : List Form → List String
  | [] => []
  | f :: fs => f.written :: writtenAll fs

end

mutual

/-- Can the form be spelled out, every integer in it having few enough digits? -/
def writable : Form → Bool
  | int n => !Number.isUnwritable n
  | sequence fs => allWritable fs
  | tuple fs => allWritable fs
  | record _ fs => allWritable fs
  | _ => true

/-- Can the forms be spelled out? -/
def allWritable : List Form → Bool
  | [] => true
  | f :: fs => f.writable && allWritable fs

end

/-- The defect of a form that is no value where one belongs. -/
def notValue (f : Form) : Defect := if f.writable then .notValue f.written else .wrongValue

/-! ### Showing -/

/-- A lexeme: its text in quotes and its place, if known; the end of the input has neither. -/
def lexemeText (kind : Form) (content place : String) : String :=
  match kind with
  | symbol (.lexemeKind .finish) => "end of input"
  | _ => "'" ++ content ++ "'" ++ place

mutual

/-- The form as a message shows it. -/
def shown : Form → String
  | text s => s
  | symbol s => s.shown
  | path p => p.shown
  | record .number [int n] => Number.intText n
  | record .number [f] => f.shown
  | record .text [f] => f.shown
  | record .list [tuple fs] => listText (shownOnto [] fs)
  | record .lexeme [kind, content, absent] => lexemeText kind content.shown ""
  | record .lexeme [kind, content, place] => lexemeText kind content.shown (" at " ++ place.shown)
  | f => f.written

/-- The forms as a message shows them, after those already at hand in reverse. -/
def shownOnto (done : List String) : List Form → List String
  | [] => done.reverse
  | f :: fs => shownOnto (f.shown :: done) fs

end

mutual

/-- What keeps the form from being shown, if anything does. -/
def defect? : Form → Option Defect
  | text _ | symbol _ | path _ => none
  | record .number [int _] => none
  | record .number [f] => f.defect?
  | record .text [text _] => none
  | record .text [_] => some .wrongType
  | record .list [tuple fs] => firstDefect? fs
  | record .lexeme [symbol (.lexemeKind .finish), _, _] => none
  | record .lexeme [_, content, absent] => content.defect?
  | record .lexeme [_, content, place] => place.defect? <|> content.defect?
  | f => if f.writable then none else some .wrongValue

/-- What keeps the first of the forms that cannot be shown from being so. -/
def firstDefect? : List Form → Option Defect
  | [] => none
  | f :: fs => match f.defect? with
    | some d => some d
    | none => firstDefect? fs

end

theorem firstDefect?_eq_none_iff : ∀ fs : List Form,
    firstDefect? fs = none ↔ ∀ f ∈ fs, f.defect? = none
  | [] => by simp [firstDefect?]
  | f :: fs => by
    rw [firstDefect?, List.forall_mem_cons]
    cases h : f.defect? with
    | some d => simp
    | none => simp [firstDefect?_eq_none_iff fs]

end DiceNotation.Form
