import DiceNotation.Builtin

/-!
The two ways to take a sum.

The function `sum` adds up its arguments by itself, and an operation that has a list for an operand adds
up the items as it does everything else, with any fault turned into an error of its operator. To add up
has but one fault, that of a result which is too large (`plus_onlyTooLarge`), so the two agree but for
the name in the error (`Builtin.sumOf_eq`). Of plain numbers both are the `Number.total`.
-/

namespace DiceNotation

/-! ### The fault of a sum -/

namespace Number

/-- The sum of numbers from the left, starting at the integer 0. -/
def total (ns : List Number) : Except Fault Number := do
  let sum ← ns.foldlM plus (int 0)
  checked sum

/-- There is no fault, or the one of a result that is too large. -/
def OnlyTooLarge {α : Type} : Except Fault α → Prop
  | .ok _ => True
  | .error f => f = .tooLarge

theorem OnlyTooLarge.bind {α β : Type} {x : Except Fault α} {f : α → Except Fault β}
    (hx : OnlyTooLarge x) (hf : ∀ a, OnlyTooLarge (f a)) : OnlyTooLarge (x >>= f) := by
  cases x with
  | ok a => exact hf a
  | error f => exact hx

theorem toReal_onlyTooLarge (n : Number) : OnlyTooLarge n.toReal := by
  cases n with
  | real x => trivial
  | int n =>
    unfold toReal
    dsimp only
    split
    · trivial
    · rfl

theorem checked_onlyTooLarge (n : Number) : OnlyTooLarge n.checked := by
  cases n with
  | int n => trivial
  | real x =>
    unfold checked settle
    dsimp only
    split
    · trivial
    · rfl

theorem plus_onlyTooLarge (m n : Number) : OnlyTooLarge (plus m n) := by
  have inReals : OnlyTooLarge (do return real ((← m.toReal).add (← n.toReal))) :=
    m.toReal_onlyTooLarge.bind fun _ => n.toReal_onlyTooLarge.bind fun _ => trivial
  cases m with
  | real x => exact inReals
  | int m =>
    cases n with
    | int n => trivial
    | real y => exact inReals

theorem foldlM_plus_onlyTooLarge (ns : List Number) (sum : Number) :
    OnlyTooLarge (ns.foldlM plus sum) := by
  induction ns generalizing sum with
  | nil => trivial
  | cons n ns ih =>
    rw [List.foldlM_cons]
    exact (plus_onlyTooLarge sum n).bind ih

/-- The sum of numbers can only be too large. -/
theorem total_onlyTooLarge (ns : List Number) : OnlyTooLarge (total ns) :=
  (foldlM_plus_onlyTooLarge ns (int 0)).bind checked_onlyTooLarge

end Number

/-! ### The sum of scalars -/

theorem settleFor_bind {α β : Type} (op : Form) (x : Except Fault α) (f : α → Except Fault β) :
    settleFor op (x >>= f) = settleFor op x >>= fun a => settleFor op (f a) := by
  cases x <;> rfl

/-- The sum of scalars that are numbers is the sum of these numbers. -/
theorem Scalar.total_numbers (op : Form) (ns : List Number) :
    Scalar.total op (ns.map .number) = (settleFor op (Number.total ns)).map .number := by
  have fold : ∀ b : Number, (ns.map Scalar.number).foldlM
      (fun sum c => do settleFor op (Number.plus sum (← c.expectNumber))) b =
      settleFor op (ns.foldlM Number.plus b) := by
    induction ns with
    | nil => exact fun b => rfl
    | cons n ns ih =>
      intro b
      rw [List.map_cons, List.foldlM_cons, List.foldlM_cons, settleFor_bind]
      exact bind_congr ih
  rw [Scalar.total, fold, Number.total, settleFor_bind]
  cases settleFor op (ns.foldlM Number.plus (.int 0)) with
  | error f => rfl
  | ok sum =>
    show (settleFor op sum.checked >>= fun n => pure (number n)) =
      (settleFor op sum.checked).map number
    cases settleFor op sum.checked <;> rfl

/-! ### The function `sum` -/

/-- One step of the function is one step of the sum of an operand. -/
theorem Builtin.addTo_eq (total : Number) (c : Scalar) :
    addTo total c = (do settleFor sum.name (Number.plus total (← c.expectNumber))) := by
  unfold addTo
  cases c.expectNumber with
  | error f => rfl
  | ok n =>
    have size := Number.plus_onlyTooLarge total n
    dsimp only [bind, Except.bind]
    cases h : Number.plus total n with
    | ok n => rfl
    | error f =>
      rw [h] at size
      obtain rfl : f = .tooLarge := size
      rfl

/-- The function comes to what its arguments, flattened into a list, stand for as an operand. -/
theorem Builtin.sumOf_eq (args : List Value) : sumOf args = (do
    return .numberOf (← Scalar.total sum.name (← (flatten args).mapM Value.content))) := by
  unfold sumOf Scalar.total
  refine bind_congr fun cs => ?_
  rw [funext fun total => funext (addTo_eq total), bind_assoc]
  refine bind_congr fun total => ?_
  cases total with
  | int n => rfl
  | real x =>
    show (if x.isFinite then _ else _) = (settleFor _ (Number.settle x) >>= _) >>= _
    unfold Number.settle
    split <;> rfl

end DiceNotation
