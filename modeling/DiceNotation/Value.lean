import DiceNotation.Scalar

/-!
Values: numbers, texts and lists of values.

A stray stands where a value belongs without being one: a number or a text with the wrong content,
or an object of another kind. A value is well formed when no stray is anywhere in it. Strays are kept
apart in one constructor, so that everything that can happen to them can be said.
-/

namespace DiceNotation

/-- What stands where a value belongs. -/
inductive Stray where
  | number (content : Scalar)
  | text (content : Scalar)
  | foreign (object : Form)

/-- A value, or a stray in its place. -/
inductive Value where
  | number (n : Number)
  | text (s : String)
  | list (items : List Value)
  | stray (s : Stray)

namespace Value

instance : Inhabited Value := ⟨text ""⟩

/-- An integer as a value. -/
abbrev int (n : Int) : Value := number (.int n)

/-- A real as a value. -/
abbrev real (x : Binary64) : Value := number (.real x)

/-- The number that holds a scalar. -/
def numberOf : Scalar → Value
  | .number n => number n
  | c => stray (.number c)

/-- The text that holds a scalar. -/
def textOf : Scalar → Value
  | .text s => text s
  | c => stray (.text c)

/-- The value, unless there is nothing at all in its place. -/
def given? : Value → Option Value
  | stray (.foreign .absent) => none
  | v => some v

mutual

/-- Is no stray anywhere in the value? -/
def wellFormed : Value → Bool
  | number _ => true
  | text _ => true
  | list vs => allWellFormed vs
  | stray _ => false

/-- Is no stray anywhere in the values? -/
def allWellFormed : List Value → Bool
  | [] => true
  | v :: vs => v.wellFormed && allWellFormed vs

end

theorem allWellFormed_eq_all : ∀ vs : List Value, allWellFormed vs = vs.all wellFormed
  | [] => by simp [allWellFormed]
  | v :: vs => by simp [allWellFormed, allWellFormed_eq_all vs]

theorem given?_of_wellFormed {v : Value} (h : v.wellFormed = true) : v.given? = some v := by
  unfold given?
  split
  · simp [wellFormed] at h
  · rfl

/-- The type of a value; an object of another kind has none. -/
def type? : Value → Outcome ValueType
  | number (.int _) => .ok .int
  | number (.real _) => .ok .real
  | text _ => .ok .text
  | list _ => .ok .list
  | stray (.number _) => .ok .real
  | stray (.text _) => .ok .text
  | stray (.foreign f) => .error (.defect f.notValue)

theorem exists_type {v : Value} (h : v.wellFormed = true) : ∃ type, v.type? = .ok type := by
  cases v with
  | number n => cases n <;> exact ⟨_, rfl⟩
  | text s => exact ⟨_, rfl⟩
  | list vs => exact ⟨_, rfl⟩
  | stray s => cases h

/-- Is the value an integer? -/
def isInt : Value → Bool
  | number n => n.isInt
  | _ => false

/-- What a number holds. -/
def numberContent? : Value → Option Scalar
  | number n => some (.number n)
  | stray (.number c) => some c
  | _ => none

/-- What a text holds. -/
def textContent? : Value → Option Scalar
  | text s => some (.text s)
  | stray (.text c) => some c
  | _ => none

/-- The integer that a number stands for. -/
def toInt (v : Value) : Outcome Int :=
  match v.numberContent? with
  | some c => c.toInt
  | none => .error (.defect .wrongType)

/-! ### Text -/

mutual

/-- The form that a value is handed over as. -/
def toForm : Value → Form
  | number n => .record .number [(Scalar.number n).toForm]
  | text s => .record .text [.text s]
  | list vs => .record .list [.tuple (formsOnto [] vs)]
  | stray (.number c) => .record .number [c.toForm]
  | stray (.text c) => .record .text [c.toForm]
  | stray (.foreign f) => f

/-- The forms of the values, after those already at hand in reverse. -/
def formsOnto (done : List Form) : List Value → List Form
  | [] => done.reverse
  | v :: vs => formsOnto (v.toForm :: done) vs

end

/-- The value as text: numbers in decimal, texts as they are, lists in brackets. -/
def shown (v : Value) : String := v.toForm.shown

/-- What keeps the value from being shown, if anything does. -/
def defect? (v : Value) : Option Defect := v.toForm.defect?

theorem formsOnto_eq : ∀ (vs : List Value) (done : List Form),
    formsOnto done vs = done.reverse ++ vs.map toForm
  | [], done => by simp [formsOnto]
  | v :: vs, done => by simp [formsOnto, formsOnto_eq vs]

theorem toForm_list (vs : List Value) :
    (list vs).toForm = .record .list [.tuple (vs.map toForm)] := by
  simp [toForm, formsOnto_eq]

theorem defect?_number (n : Number) : (number n).defect? = none := by
  cases n <;> simp [defect?, toForm, Scalar.toForm, Form.defect?, Form.writable]

theorem defect?_list (vs : List Value) :
    (list vs).defect? = none ↔ ∀ v ∈ vs, v.defect? = none := by
  rw [defect?, toForm_list, Form.defect?, Form.firstDefect?_eq_none_iff]
  exact List.forall_mem_map

mutual

/-- A value that is one can be shown, however many digits its numbers have. -/
theorem defect?_of_wellFormed : ∀ v : Value, v.wellFormed = true → v.defect? = none
  | number n, _ => defect?_number n
  | text s, _ => by simp [defect?, toForm, Form.defect?]
  | list vs, h => (defect?_list vs).mpr (defects?_of_wellFormed vs h)
  | stray s, h => by simp [wellFormed] at h

theorem defects?_of_wellFormed : ∀ vs : List Value, allWellFormed vs = true →
    ∀ v ∈ vs, v.defect? = none
  | [], _ => by simp
  | v :: vs, h => by
    rw [allWellFormed, Bool.and_eq_true] at h
    exact List.forall_mem_cons.mpr ⟨defect?_of_wellFormed v h.1, defects?_of_wellFormed vs h.2⟩

end

end Value

end DiceNotation
