import DiceNotation.Proofs.Parts

/-!
The leftmost failure.

The expressions of a list are evaluated from left to right, each with the dice that the one before it
has left (`InTurn`). Either all of them succeed, or there is a first one that fails (`FirstFailure`),
and then nothing after it is evaluated. So a list comes to the values of all its expressions or to the
first failure among them, a call cannot come to anything else before its arguments have succeeded, and
no operator looks at its operands before they have (`leftmost_failure_wins`).
-/

namespace DiceNotation

/-! ### One after another -/

section

variable [Host]

/-- The expressions succeed one after another with these values, and leave these dice after these
    rolls. -/
inductive InTurn (env : Env) : List Expr → Dice → List Value → Dice → List Roll → Prop
  | nil {d : Dice} : InTurn env [] d [] d []
  | cons {e : Expr} {es : List Expr} {d d₁ d₂ : Dice} {v : Value} {vs : List Value}
      {before later : List Roll} :
    e.eval env d = ⟨.ok v, d₁, before⟩ → InTurn env es d₁ vs d₂ later →
    InTurn env (e :: es) d (v :: vs) d₂ (before ++ later)

/-- Some expressions of the list succeed one after another, and the next one fails, whatever is left
    of the list. -/
inductive FirstFailure (env : Env) : List Expr → Dice → Failure → Dice → List Roll → Prop
  | after {pre post : List Expr} {e : Expr} {d d₁ d₂ : Dice} {vs : List Value} {f : Failure}
      {before later : List Roll} :
    InTurn env pre d vs d₁ before → e.eval env d₁ = ⟨.error f, d₂, later⟩ →
    FirstFailure env (pre ++ e :: post) d f d₂ (before ++ later)

variable {env : Env} {es : List Expr} {d d' : Dice} {vs : List Value} {rolls : List Roll}
  {f : Failure}

theorem InTurn.length_eq (h : InTurn env es d vs d' rolls) : vs.length = es.length := by
  induction h with
  | nil => rfl
  | cons _ _ ih => simp [ih]

theorem InTurn.evalAllWith_eq (h : InTurn env es d vs d' rolls) :
    evalAllWith env env.call es d = ⟨.ok vs, d', rolls⟩ := by
  induction h with
  | nil => rw [evalAllWith]; rfl
  | cons he _ ih =>
    rw [Expr.eval_eq] at he
    rw [evalAllWith, Eval.bind_ok he, Eval.bind_ok ih]
    simp [pure, Eval.lift]

theorem FirstFailure.evalAllWith_eq (h : FirstFailure env es d f d' rolls) :
    evalAllWith env env.call es d = ⟨.error f, d', rolls⟩ := by
  obtain ⟨hpre, he⟩ := h
  rw [Expr.eval_eq] at he
  rw [evalAllWith_append, Eval.bind_ok hpre.evalAllWith_eq, evalAllWith]
  rw [Eval.bind_error (Eval.bind_error he _)]

theorem FirstFailure.head {e : Expr} (he : e.eval env d = ⟨.error f, d', rolls⟩) :
    FirstFailure env (e :: es) d f d' rolls := by
  have first : FirstFailure env ([] ++ e :: es) d f d' ([] ++ rolls) := .after .nil he
  exact first

theorem FirstFailure.cons {e : Expr} {d₁ : Dice} {v : Value} {before : List Roll}
    (he : e.eval env d = ⟨.ok v, d₁, before⟩) (h : FirstFailure env es d₁ f d' rolls) :
    FirstFailure env (e :: es) d f d' (before ++ rolls) := by
  obtain ⟨hpre, hfail⟩ := h
  rw [← List.append_assoc]
  exact .after (.cons he hpre) hfail

/-- Either all expressions succeed, or there is a first one that fails. -/
theorem inTurn_or_firstFailure (env : Env) (es : List Expr) (d : Dice) :
    (∃ vs d' rolls, InTurn env es d vs d' rolls) ∨
      ∃ f d' rolls, FirstFailure env es d f d' rolls := by
  induction es generalizing d with
  | nil => exact .inl ⟨[], d, [], .nil⟩
  | cons e es ih =>
    rcases he : e.eval env d with ⟨f | v, d₁, before⟩
    · exact .inr ⟨f, d₁, before, .head he⟩
    · rcases ih d₁ with ⟨vs, d₂, later, h⟩ | ⟨f, d₂, later, h⟩
      · exact .inl ⟨v :: vs, d₂, before ++ later, .cons he h⟩
      · exact .inr ⟨f, d₂, before ++ later, .cons he h⟩

/-! ### Lists and calls -/

theorem InTurn.eval_list (h : InTurn env es d vs d' rolls) :
    (Expr.list es).eval env d = ⟨.ok (.list vs), d', rolls⟩ := by
  rw [Expr.eval_eq, Expr.evalWith, Eval.bind_pure_apply, h.evalAllWith_eq]
  rfl

theorem FirstFailure.eval_list (h : FirstFailure env es d f d' rolls) :
    (Expr.list es).eval env d = ⟨.error f, d', rolls⟩ := by
  rw [Expr.eval_eq, Expr.evalWith, Eval.bind_error h.evalAllWith_eq]

theorem FirstFailure.eval_call (h : FirstFailure env es d f d' rolls) (name : String) :
    (Expr.call name es).eval env d = ⟨.error f, d', rolls⟩ := by
  rw [Expr.eval_eq, Expr.evalWith, Eval.bind_error h.evalAllWith_eq]

theorem eval_list_eq_ok_iff {v : Value} : (Expr.list es).eval env d = ⟨.ok v, d', rolls⟩ ↔
    ∃ vs, v = .list vs ∧ InTurn env es d vs d' rolls := by
  constructor
  · intro h
    rcases inTurn_or_firstFailure env es d with ⟨vs, d₁, all, hall⟩ | ⟨f, d₁, all, hfail⟩
    · rw [hall.eval_list] at h
      cases h
      exact ⟨vs, rfl, hall⟩
    · rw [hfail.eval_list] at h
      cases h
  · rintro ⟨vs, rfl, hall⟩
    exact hall.eval_list

theorem eval_list_eq_error_iff : (Expr.list es).eval env d = ⟨.error f, d', rolls⟩ ↔
    FirstFailure env es d f d' rolls := by
  constructor
  · intro h
    rcases inTurn_or_firstFailure env es d with ⟨vs, d₁, all, hall⟩ | ⟨f, d₁, all, hfail⟩
    · rw [hall.eval_list] at h
      cases h
    · rw [hfail.eval_list] at h
      cases h
      exact hfail
  · intro h
    exact h.eval_list

/-! ### Operands -/

/-- A left operand that fails decides the outcome of every operator. -/
theorem Expr.eval_op_of_left_error {l : Expr} (h : l.eval env d = ⟨.error f, d', rolls⟩)
    (o : InfixOp) (r : Option Expr) :
    (Expr.op o (some l) r).eval env d = ⟨.error f, d', rolls⟩ := by
  rw [eval_eq] at h ⊢
  by_cases ho : o = .dice
  · rw [ho, evalWith, Eval.bind_error (evalOptionWith_of_error h)]
  · rw [evalWith_op ho, Eval.bind_error (evalOptionWith_of_error h)]

/-- A right operand that fails, where the left one has not, decides the outcome of every operator but
    that of dice, which first looks at the left one. -/
theorem Expr.eval_op_of_right_error {o : InfixOp} (ho : o ≠ .dice) {l : Option Expr} {r : Expr}
    {d₁ : Dice} {before : List Roll} (hl : InTurn env l.toList d vs d₁ before)
    (hr : r.eval env d₁ = ⟨.error f, d', rolls⟩) :
    (Expr.op o l (some r)).eval env d = ⟨.error f, d', before ++ rolls⟩ := by
  rw [eval_eq] at hr ⊢
  rw [evalWith_op ho]
  cases l with
  | none =>
    cases hl
    rw [evalOptionWith, pure_bind, Eval.bind_error (evalOptionWith_of_error hr)]
    rfl
  | some l =>
    obtain _ | ⟨hl, ⟨⟩⟩ := hl
    rw [eval_eq] at hl
    rw [Eval.bind_ok (evalOptionWith_of_ok hl), Eval.bind_error (evalOptionWith_of_error hr)]
    simp

/-- The leftmost failure wins, and nothing after it is evaluated. A list of expressions fails exactly
    if one of them fails after all before it have succeeded, with its failure and with the dice as it
    has left them, and so does a call of any name with these arguments; otherwise the list comes to
    the values in order, one for each expression. A left operand that fails decides the outcome of
    every operator, and a right one that fails after the left one, if there is one, has succeeded
    decides that of every operator but the one of dice. -/
theorem leftmost_failure_wins (env : Env) (d : Dice) :
    (∀ es f d' rolls, (Expr.list es).eval env d = ⟨.error f, d', rolls⟩ ↔
      ∃ pre e post vs d₁ before later, es = pre ++ e :: post ∧ InTurn env pre d vs d₁ before ∧
        e.eval env d₁ = ⟨.error f, d', later⟩ ∧ rolls = before ++ later) ∧
    (∀ name pre e post vs d₁ before f d' later, InTurn env pre d vs d₁ before →
      e.eval env d₁ = ⟨.error f, d', later⟩ →
        (Expr.call name (pre ++ e :: post)).eval env d = ⟨.error f, d', before ++ later⟩) ∧
    (∀ es v d' rolls, (Expr.list es).eval env d = ⟨.ok v, d', rolls⟩ ↔
      ∃ vs, v = .list vs ∧ vs.length = es.length ∧ InTurn env es d vs d' rolls) ∧
    (∀ o l r f d' rolls, l.eval env d = ⟨.error f, d', rolls⟩ →
      (Expr.op o (some l) r).eval env d = ⟨.error f, d', rolls⟩) ∧
    (∀ o l r vs d₁ before f d' later, o ≠ .dice → InTurn env l.toList d vs d₁ before →
      r.eval env d₁ = ⟨.error f, d', later⟩ →
        (Expr.op o l (some r)).eval env d = ⟨.error f, d', before ++ later⟩) := by
  refine ⟨?_, ?_, ?_, ?_, ?_⟩
  · intro es f d' rolls
    rw [eval_list_eq_error_iff]
    constructor
    · rintro ⟨hpre, he⟩
      exact ⟨_, _, _, _, _, _, _, rfl, hpre, he, rfl⟩
    · rintro ⟨pre, e, post, vs, d₁, before, later, rfl, hpre, he, rfl⟩
      exact .after hpre he
  · intro name pre e post vs d₁ before f d' later hpre he
    exact (FirstFailure.after hpre he).eval_call name
  · intro es v d' rolls
    rw [eval_list_eq_ok_iff]
    constructor
    · rintro ⟨vs, rfl, h⟩
      exact ⟨vs, rfl, h.length_eq, h⟩
    · rintro ⟨vs, rfl, -, h⟩
      exact ⟨vs, rfl, h⟩
  · intro o l r f d' rolls h
    exact Expr.eval_op_of_left_error h o r
  · intro o l r vs d₁ before f d' later ho hl hr
    exact Expr.eval_op_of_right_error ho hl hr

end

open Unlimited in
/-- A die, a name without a value and another die as arguments of a function of one argument: the
    first die is rolled, the second is not, and nobody counts the arguments. -/
theorem unknown_argument_stops_call :
    let die : Expr := .op .dice none (some (.lit (.int 6) rfl))
    ∀ d : Dice, (Expr.call "len" [die, .var "x", die]).eval .initial d =
      ⟨fail (.undefinedIdentifier "x"), (d.faces 1 6).2, [⟨1, 6, (d.faces 1 6).1⟩]⟩ := by
  intro die d
  have rolled : Env.initial.rollOperands 1 6 d = _ :=
    Env.initial.rollOperands_of_le (by decide) (by decide) (by decide) d
  have hdie : die.eval .initial d = Env.initial.rollOperands 1 6 d := rfl
  have hpre : InTurn .initial [die] d _ _ _ := .cons (hdie.trans rolled) .nil
  exact (leftmost_failure_wins .initial d).2.1 "len" [die] (.var "x") [die] _ _ _ _ _ _ hpre rfl

end DiceNotation
