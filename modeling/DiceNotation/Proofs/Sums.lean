import Mathlib.Data.List.Basic
import DiceNotation.Proofs.Raised

/-!
A pool stands for its sum.

The sum of a list is taken in two places, by the function `sum` and by every operation that has the
list for an operand. Both see first whether all items are numbers and then add these up, so they come
to the same sum or fail alike (`mapM_content_cases`, `Builtin.sum_apply_numbers`). An operation uses an
operand only by what it stands for (`Place.fill_eq`). Hence a list that has a sum can be replaced by
it, and one that has none fails the operation like it fails `sum` (`pool_stands_for_sum`).
-/

namespace DiceNotation

/-! ### Operands of arithmetic -/

/-- The operations on two values. -/
inductive Operation where
  | add | sub | mul | div | pow
  deriving DecidableEq

namespace Operation

/-- The operator of an operation. -/
def op : Operation → InfixOp
  | add => .plus | sub => .minus | mul => .mul | div => .div | pow => .pow

/-- An operation on values. -/
def apply : Operation → Value → Value → Outcome Value
  | add => Value.add | sub => Value.sub | mul => Value.mul | div => Value.div | pow => Value.pow

/-- What an operation does to the scalars that its operands stand for. -/
def onScalars : Operation → Scalar → Scalar → Outcome Scalar
  | add => Scalar.add
  | sub => Scalar.sub
  | mul => Scalar.mul
  | div => Scalar.div
  | pow => Scalar.combine InfixOp.pow Number.pow

end Operation

/-- Is the value a list? -/
def Value.isList : Value → Bool
  | .list _ => true
  | _ => false

/-- An operation in which the place of one operand is open. -/
inductive Place where
  | neg
  | left (o : Operation) (right : Value)
  | right (left : Value) (o : Operation)

namespace Place

/-- The operation with a value in its open place. -/
def fill : Place → Value → Outcome Value
  | neg, v => v.neg
  | left o w, v => o.apply v w
  | right w o, v => o.apply w v

/-- The operator of the operation. -/
def op : Place → InfixOp
  | neg => .minus
  | left o _ => o.op
  | right _ o => o.op

/-- A list in the place is taken for its sum: it is not joined to another one. -/
def Numeric : Place → Prop
  | left .add w | right w .add => w.isList = false
  | _ => True

/-- The operation comes to look at the place: the operand before it, if there is one, stands for a
    number. -/
def Reached : Place → Prop
  | right w o => ∃ c, w.operand o.op = .ok c
  | _ => True

/-- The rest of the operation, once it is known what the value in the place stands for. -/
def rest : Place → Outcome Scalar → Outcome Value
  | neg, x => do return .numberOf (← (← x).neg)
  | left o w, x => do
    let a ← x
    let b ← w.operand o.op
    return .numberOf (← o.onScalars a b)
  | right w o, x => do
    let a ← w.operand o.op
    let b ← x
    return .numberOf (← o.onScalars a b)

end Place

theorem Value.add_eq_binary {v w : Value} (htext : v.textContent? = none ∨ w.textContent? = none)
    (hlist : v.isList = false ∨ w.isList = false) :
    v.add w = binary .plus Scalar.add v w := by
  unfold add
  split
  · rcases hlist with h | h <;> cases h
  · split
    next hv hw =>
      rcases htext with h | h
      · rw [hv] at h
        cases h
      · rw [hw] at h
        cases h
    next => rfl

theorem Operation.apply_eq_binary {o : Operation} {v w : Value}
    (htext : v.textContent? = none ∨ w.textContent? = none)
    (hlist : o = .add → v.isList = false ∨ w.isList = false) :
    o.apply v w = Value.binary o.op o.onScalars v w := by
  cases o with
  | add => exact Value.add_eq_binary htext (hlist rfl)
  | _ => rfl

namespace Place

/-- An operation uses the value in a place by what it stands for, unless it joins it. -/
theorem fill_eq {p : Place} (hp : p.Numeric) {v : Value} (hv : v.textContent? = none) :
    p.fill v = p.rest (v.operand p.op) := by
  cases p with
  | neg => rfl
  | left o w =>
    refine Operation.apply_eq_binary (.inl hv) ?_
    rintro rfl
    exact .inr hp
  | right w o =>
    refine Operation.apply_eq_binary (.inr hv) ?_
    rintro rfl
    exact .inl hp

/-- A place that is reached passes a failure on. -/
theorem rest_error {p : Place} (hp : p.Reached) (f : Failure) : p.rest (.error f) = .error f := by
  cases p with
  | neg => rfl
  | left o w => rfl
  | right w o =>
    obtain ⟨c, hc⟩ := hp
    rw [rest, hc]
    rfl

end Place

/-! ### Pools and sums -/

/-- The function `sum` adds up the items of a list. -/
theorem Builtin.sum_apply_list (vs : List Value) : sum.apply [.list vs] = (do
    return .numberOf (← Scalar.total sum.name (← vs.mapM Value.content))) := by
  have items : flatten [.list vs] = vs := List.append_nil vs
  rw [apply, sumOf_eq, items]

/-- The function `sum` gives the total of a list of numbers, as an operand stands for it. -/
theorem Builtin.sum_apply_numbers (ns : List Number) :
    sum.apply [.list (ns.map Value.number)] =
      (settleFor sum.name (Number.total ns)).map Value.number := by
  rw [sum_apply_list, Value.content_numbers]
  show (Scalar.total sum.name (ns.map .number) >>= fun c => pure (Value.numberOf c)) = _
  rw [Scalar.total_numbers]
  cases settleFor sum.name (Number.total ns) <;> rfl

/-- Well-formed items are all numbers, or there is a first one that is none. -/
theorem Value.numbers_or_first_other : ∀ {vs : List Value}, (∀ v ∈ vs, v.wellFormed = true) →
    (∃ ns : List Number, vs = ns.map number) ∨
      ∃ (ns : List Number) (w : Value) (post : List Value) (found : ValueType),
        vs = ns.map number ++ w :: post ∧ w.numberContent? = none ∧ w.type? = .ok found
  | [], _ => .inl ⟨[], rfl⟩
  | v :: vs, h => by
    obtain ⟨hv, hvs⟩ := List.forall_mem_cons.mp h
    cases v with
    | text s => exact .inr ⟨[], .text s, vs, .text, rfl, rfl, rfl⟩
    | list ws => exact .inr ⟨[], .list ws, vs, .list, rfl, rfl, rfl⟩
    | stray s => cases hv
    | number n =>
      rcases numbers_or_first_other hvs with ⟨ns, rfl⟩ | ⟨ns, w, post, found, rfl, hw, hfound⟩
      · exact .inl ⟨n :: ns, rfl⟩
      · exact .inr ⟨n :: ns, w, post, found, rfl, hw, hfound⟩

/-- The first item that is no number is mismatched, whatever comes after it. -/
theorem Value.mapM_content_mismatch (ns : List Number) {w : Value} {found : ValueType}
    (hw : w.numberContent? = none) (hfound : w.type? = .ok found) (post : List Value) :
    (ns.map number ++ w :: post).mapM content = fail (.typeMismatch "number" found) := by
  have mismatch : w.content = fail (.typeMismatch "number" found) := by
    rw [content, hw, hfound]
    rfl
  rw [List.mapM_append, content_numbers, List.mapM_cons, mismatch]
  rfl

/-- Well-formed items are all numbers, or the first that is none is mismatched. -/
theorem Value.mapM_content_cases {vs : List Value} (h : ∀ v ∈ vs, v.wellFormed = true) :
    (∃ ns : List Number, vs = ns.map number) ∨
      ∃ found : ValueType, vs.mapM content = fail (.typeMismatch "number" found) := by
  rcases numbers_or_first_other h with hns | ⟨ns, w, post, found, rfl, hw, hfound⟩
  · exact .inl hns
  · exact .inr ⟨found, mapM_content_mismatch ns hw hfound post⟩

/-- A list of well-formed items stands for its sum in arithmetic, and the sum is the one that the
    function `sum` gives. It can be replaced by its sum in every place of an operation but beside
    another list in an addition. If `sum` fails, then for an item that is no number, or because the
    result is too large, and every operation that comes to look at the list fails for the same reason
    under its own operator. -/
theorem pool_stands_for_sum (vs : List Value) (h : (Value.list vs).wellFormed = true) :
    (∃ s : Number, Builtin.sum.apply [.list vs] = .ok (.number s) ∧
      ∀ p : Place, p.Numeric → p.fill (.list vs) = p.fill (.number s)) ∨
    (∃ expected found : Form,
      Builtin.sum.apply [.list vs] = fail (.typeMismatch expected found) ∧
      ∀ p : Place, p.Numeric → p.Reached →
        p.fill (.list vs) = fail (.typeMismatch expected found)) ∨
    (Builtin.sum.apply [.list vs] = fail (.invalidOperation "sum" "result is too large") ∧
      ∀ p : Place, p.Numeric → p.Reached →
        p.fill (.list vs) = fail (.invalidOperation p.op "result is too large")) := by
  have items : ∀ v ∈ vs, v.wellFormed = true := by
    rw [Value.wellFormed, Value.allWellFormed_eq_all, List.all_eq_true] at h
    exact h
  rcases Value.mapM_content_cases items with ⟨ns, rfl⟩ | ⟨found, hfound⟩
  · have sum := Builtin.sum_apply_numbers ns
    have operand := fun op => Value.operand_numbers op ns
    have size := Number.total_onlyTooLarge ns
    cases hs : Number.total ns with
    | ok s =>
      rw [hs] at sum
      refine .inl ⟨s, sum, fun p hp => ?_⟩
      rw [Place.fill_eq hp rfl, Place.fill_eq hp rfl, operand, hs]
      rfl
    | error f =>
      rw [hs] at sum size
      obtain rfl : f = .tooLarge := size
      refine .inr (.inr ⟨sum, fun p hp hr => ?_⟩)
      rw [Place.fill_eq hp rfl, operand, hs]
      exact Place.rest_error hr _
  · refine .inr (.inl ⟨"number", found, ?_, fun p hp hr => ?_⟩)
    · rw [Builtin.sum_apply_list, hfound]
      rfl
    · rw [Place.fill_eq hp rfl, Value.operand, hfound]
      exact Place.rest_error hr _

/-- An integer beyond the reals beside a real has no sum, and is no exponent. -/
theorem mixed_pool_too_large :
    let v : Value := .list [.int (1 <<< 1024), .real (.zero false)]
    v.wellFormed = true ∧
      Builtin.sum.apply [v] = fail (.invalidOperation "sum" "result is too large") ∧
      (Value.int 2).pow v = fail (.invalidOperation InfixOp.pow "result is too large") := by
  intro v
  have large : Number.total [.int (1 <<< 1024), .real (.zero false)] = .error .tooLarge := by
    decide +kernel
  have hsum := Builtin.sum_apply_numbers [.int (1 <<< 1024), .real (.zero false)]
  rw [large] at hsum
  rcases pool_stands_for_sum [.int (1 <<< 1024), .real (.zero false)] rfl with
    ⟨s, hs, -⟩ | ⟨expected, found, hs, -⟩ | ⟨hs, h⟩
  · cases hsum.symm.trans hs
  · cases hsum.symm.trans hs
  · exact ⟨rfl, hs, h (.right (.int 2) .pow) trivial ⟨_, rfl⟩⟩

end DiceNotation
