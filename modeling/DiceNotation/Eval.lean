import DiceNotation.Dice.Roll
import DiceNotation.Env
import DiceNotation.Host

/-!
Evaluation of expressions.

To evaluate is to turn the dice into an outcome, the dice that are left and the rolls that were made
(`Trace`); a failure keeps the dice and the rolls made before it. Everything goes from left to right,
and the first failure is the outcome. The host has a part in it where dice are rolled and where a limit
is named.

A call of a user function evaluates its body one call deeper. `evalFor` recurs on the number of calls
that may still be nested, and within it `evalWith` on the expression; `eval_eq` says that together
they are the one rule in which a call is answered by the environment.
-/

namespace DiceNotation

/-- What comes of an evaluation: its outcome, the dice left and the rolls made. -/
structure Trace (α : Type) where
  outcome : Outcome α
  dice : Dice
  rolls : List Roll

/-- An evaluation that may use dice. -/
abbrev Eval (α : Type) := Dice → Trace α

namespace Eval

variable {α β : Type}

/-- The evaluation that has an outcome without using the dice. -/
def lift (o : Outcome α) : Eval α := fun d => ⟨o, d, []⟩

/-- The evaluation that fails. -/
def fail (e : Error) : Eval α := lift (DiceNotation.fail e)

/-- One evaluation after another; after a failure there is no other. -/
def andThen (x : Eval α) (f : α → Eval β) : Eval β := fun d =>
  match x d with
  | ⟨.ok a, d, rolls⟩ =>
    let t := f a d
    { t with rolls := rolls ++ t.rolls }
  | ⟨.error e, d, rolls⟩ => ⟨.error e, d, rolls⟩

instance : Monad Eval where
  pure a := lift (.ok a)
  bind := andThen

theorem bind_ok {x : Eval α} {d d' : Dice} {a : α} {rolls : List Roll}
    (h : x d = ⟨.ok a, d', rolls⟩) (f : α → Eval β) :
    (x >>= f) d = { f a d' with rolls := rolls ++ (f a d').rolls } := by
  show andThen x f d = _
  unfold andThen
  rw [h]

theorem bind_error {x : Eval α} {d d' : Dice} {e : Failure} {rolls : List Roll}
    (h : x d = ⟨.error e, d', rolls⟩) (f : α → Eval β) :
    (x >>= f) d = ⟨.error e, d', rolls⟩ := by
  show andThen x f d = _
  unfold andThen
  rw [h]

/-- A result of two evaluations comes from a result of the first. -/
theorem exists_of_bind_ok {x : Eval α} {f : α → Eval β} {d d' : Dice} {b : β} {rolls : List Roll}
    (h : (x >>= f) d = ⟨.ok b, d', rolls⟩) :
    ∃ a d₁ before later, x d = ⟨.ok a, d₁, before⟩ ∧ f a d₁ = ⟨.ok b, d', later⟩ ∧
      rolls = before ++ later := by
  rcases hx : x d with ⟨e | a, d₁, before⟩
  · rw [bind_error hx] at h
    cases h
  · rw [bind_ok hx] at h
    rcases hf : f a d₁ with ⟨o, d₂, later⟩
    rw [hf] at h
    cases h
    exact ⟨a, d₁, before, later, rfl, hf, rfl⟩

/-- To compute with the result only is to leave the dice and the rolls alone. -/
theorem bind_pure_apply (x : Eval α) (f : α → β) (d : Dice) :
    (x >>= fun a => pure (f a)) d = ⟨(x d).outcome.map f, (x d).dice, (x d).rolls⟩ := by
  rcases h : x d with ⟨e | a, d', rolls⟩
  · exact bind_error h _
  · rw [bind_ok h]
    exact congrArg (Trace.mk _ _) (List.append_nil rolls)

theorem bind_pure_right (x : Eval α) : x >>= pure = x := by
  funext d
  refine (bind_pure_apply x id d).trans ?_
  rcases x d with ⟨e | a, d', rolls⟩ <;> rfl

theorem bind_bind {γ : Type} (x : Eval α) (f : α → Eval β) (g : β → Eval γ) :
    x >>= f >>= g = x >>= fun a => f a >>= g := by
  funext d
  rcases h : x d with ⟨e | a, d', rolls⟩
  · rw [bind_error h, bind_error (bind_error h f)]
  · have both : (x >>= f) d = { f a d' with rolls := rolls ++ (f a d').rolls } := bind_ok h f
    rcases h' : f a d' with ⟨e | b, d'', rolls'⟩ <;> rw [h'] at both
    · rw [bind_ok h, bind_error h', bind_error both]
    · rw [bind_ok h, bind_ok h', bind_ok both]
      simp only [List.append_assoc]

instance : LawfulMonad Eval := .mk' Eval bind_pure_right (fun _ _ => rfl) bind_bind

end Eval

/-! ### Dice -/

section

variable [Host]

/-- Rolls dice. A die without sides shows 0; too many dice are refused. -/
def Env.roll (env : Env) (count sides : Int) : Eval Value := fun d =>
  if env.maxRollCount < count then
    Eval.lift (refuseBeyond env.maxRollCount (.invalidOperation InfixOp.dice
      ("cannot roll more than " ++ toString env.maxRollCount ++ " dice"))) d
  else match rollDefect? count sides with
    | some x => Eval.lift (.error (.defect x)) d
    | none =>
      let (faces, d) := d.faces count.toNat sides.toNat
      ⟨.ok (.list (faces.map .int)), d, [⟨count, sides, faces⟩]⟩

/-- The integer that an operand of the dice operator must be; an absent one is 1. -/
def diceOperand : Option Value → Outcome Int
  | none => .ok 1
  | some (.number (.int n)) => .ok n
  | some v => do fail (.typeMismatch ValueType.int (← v.type?))

/-- Rolls dice if neither number is negative; the count is looked at first. -/
def Env.rollOperands (env : Env) (count sides : Int) : Eval Value :=
  if count < 0 then Eval.fail (.negativeArgument (.int count))
  else if sides < 0 then Eval.fail (.negativeArgument (.int sides))
  else env.roll count sides

/-- What comes of a roll: a negative number or too many dice are refused, the host may not be able to
    make it, and then the dice fall. -/
@[elab_as_elim]
theorem Env.rollOperands_cases {P : Trace Value → Prop} (env : Env) (count sides : Int) (d : Dice)
    (negativeCount : count < 0 → P ⟨DiceNotation.fail (.negativeArgument (.int count)), d, []⟩)
    (negativeSides : 0 ≤ count → sides < 0 →
      P ⟨DiceNotation.fail (.negativeArgument (.int sides)), d, []⟩)
    (tooMany : 0 ≤ count → 0 ≤ sides → env.maxRollCount < count →
      P ⟨refuseBeyond env.maxRollCount (.invalidOperation InfixOp.dice
        ("cannot roll more than " ++ toString env.maxRollCount ++ " dice")), d, []⟩)
    (unable : 0 ≤ count → 0 ≤ sides → count ≤ env.maxRollCount →
      ∀ x, rollDefect? count sides = some x → P ⟨.error (.defect x), d, []⟩)
    (rolled : 0 ≤ count → 0 ≤ sides → count ≤ env.maxRollCount → rollDefect? count sides = none →
      ∀ faces d', d.faces count.toNat sides.toNat = (faces, d') →
        P ⟨.ok (.list (faces.map .int)), d', [⟨count, sides, faces⟩]⟩) :
    P (env.rollOperands count sides d) := by
  unfold Env.rollOperands
  by_cases hc : count < 0
  · rw [if_pos hc]
    exact negativeCount hc
  rw [if_neg hc]
  rw [Int.not_lt] at hc
  by_cases hs : sides < 0
  · rw [if_pos hs]
    exact negativeSides hc hs
  rw [if_neg hs]
  rw [Int.not_lt] at hs
  unfold Env.roll
  by_cases hm : env.maxRollCount < count
  · rw [if_pos hm]
    exact tooMany hc hs hm
  rw [if_neg hm]
  rw [Int.not_lt] at hm
  cases hx : rollDefect? count sides with
  | some x => exact unable hc hs hm x hx
  | none => exact rolled hc hs hm hx _ _ rfl

end

section

open Unlimited

/-- What comes of a roll on a host that is able to make it. -/
@[elab_as_elim]
theorem Env.rollOperands_cases_unlimited {P : Trace Value → Prop} (env : Env) (count sides : Int)
    (d : Dice)
    (negativeCount : count < 0 → P ⟨DiceNotation.fail (.negativeArgument (.int count)), d, []⟩)
    (negativeSides : 0 ≤ count → sides < 0 →
      P ⟨DiceNotation.fail (.negativeArgument (.int sides)), d, []⟩)
    (tooMany : 0 ≤ count → 0 ≤ sides → env.maxRollCount < count →
      P ⟨DiceNotation.fail (.invalidOperation InfixOp.dice
        ("cannot roll more than " ++ toString env.maxRollCount ++ " dice")), d, []⟩)
    (rolled : 0 ≤ count → 0 ≤ sides → count ≤ env.maxRollCount →
      ∀ faces d', d.faces count.toNat sides.toNat = (faces, d') →
        P ⟨.ok (.list (faces.map .int)), d', [⟨count, sides, faces⟩]⟩) :
    P (env.rollOperands count sides d) := by
  refine env.rollOperands_cases count sides d negativeCount negativeSides tooMany ?_ ?_
  · intro _ hs _ x hx
    rw [rollDefect?_unlimited count hs] at hx
    cases hx
  · exact fun hc hs hm _ => rolled hc hs hm

/-- The dice of a roll that is not refused. -/
theorem Env.rollOperands_of_le (env : Env) {count sides : Int} (hc : 0 ≤ count) (hs : 0 ≤ sides)
    (hm : count ≤ env.maxRollCount) (d : Dice) :
    env.rollOperands count sides d =
      let rolled := d.faces count.toNat sides.toNat
      ⟨.ok (.list (rolled.1.map .int)), rolled.2, [⟨count, sides, rolled.1⟩]⟩ := by
  refine env.rollOperands_cases_unlimited count sides d ?_ ?_ ?_ ?_
  · exact fun h => absurd h (Int.not_lt.mpr hc)
  · exact fun _ h => absurd h (Int.not_lt.mpr hs)
  · exact fun _ _ h => absurd h (Int.not_lt.mpr hm)
  · intro _ _ _ faces d' hfaces
    rw [hfaces]

end

/-! ### Operators -/

/-- Applies an operator that needs both operands. -/
def strict (op : InfixOp) (f : Value → Value → Outcome Value) :
    Option Value → Option Value → Outcome Value
  | some l, some r => f l r
  | none, none => fail (.noOperands op)
  | none, some _ => fail (.missingOperand op Side.left)
  | some _, none => fail (.missingOperand op Side.right)

/-- Applies an operator that needs only its right operand. -/
def lenient (op : InfixOp) (one : Value → Outcome Value) (two : Value → Value → Outcome Value) :
    Option Value → Option Value → Outcome Value
  | _, none => fail (.missingOperand op Side.right)
  | none, some r => one r
  | some l, some r => two l r

/-- Applies an operator to the values of its operands; nothing at all in the place of one is no
    operand. Dice are never reduced here. -/
def reduce (op : InfixOp) (left right : Option Value) : Outcome Value :=
  let l := left.bind Value.given?
  let r := right.bind Value.given?
  match op with
  | .dice => .error (.defect .diceOperator)
  | .plus => lenient op .ok Value.add l r
  | .minus => lenient op Value.neg Value.sub l r
  | .mul => strict op Value.mul l r
  | .div => strict op Value.div l r
  | .pow => strict op Value.pow l r

/-! ### Expressions -/

section

variable [Host]

mutual

/-- Evaluates an expression, a call being answered by `call`. -/
def Expr.evalWith (env : Env) (call : String → List Value → Eval Value) : Expr → Eval Value
  | .lit v _ => pure v
  | .list items => do return .list (← evalAllWith env call items)
  | .var name => Eval.lift (env.lookup name)
  | .call name args => do call name (← evalAllWith env call args)
  | .op .dice l r => do
    let count ← Eval.lift (diceOperand (← evalOptionWith env call l))
    let sides ← Eval.lift (diceOperand (← evalOptionWith env call r))
    env.rollOperands count sides
  | .op op l r => do
    let a ← evalOptionWith env call l
    let b ← evalOptionWith env call r
    Eval.lift (reduce op a b)
  | .range => Eval.fail (.unimplemented "range")
  | .filter => Eval.fail (.unimplemented "filter")
  | .foreign kind => Eval.fail (.malformed (kind.name ++ " is not an expression"))

/-- Evaluates expressions one after another. -/
def evalAllWith (env : Env) (call : String → List Value → Eval Value) :
    List Expr → Eval (List Value)
  | [] => pure []
  | e :: es => do
    let v ← e.evalWith env call
    let vs ← evalAllWith env call es
    return v :: vs

/-- Evaluates an operand, if there is one. -/
def evalOptionWith (env : Env) (call : String → List Value → Eval Value) :
    Option Expr → Eval (Option Value)
  | none => pure none
  | some e => do return some (← e.evalWith env call)

end

/-! ### Calls -/

/-- Answers a call: by the user function of that name, whose body `run` evaluates, else by the
    built-in one. The number of arguments is checked before the depth. -/
def Env.callWith (run : Env → Expr → Eval Value) (env : Env) (name : String)
    (args : List Value) : Eval Value :=
  match env.funs.get? name with
  | some f =>
    if args.length ≠ f.arity then
      Eval.fail (.arityMismatch name (.int f.arity) (.int args.length))
    else if env.maxCallDepth ≤ env.callDepth then
      Eval.lift (refuseBeyond env.maxCallDepth
        (.invalidOperation name ("call depth exceeded " ++ toString env.maxCallDepth)))
    else run (env.scope (f.params.zip args)) f.body
  | none =>
    match env.builtins.get? name with
    | some f => Eval.lift (f.apply args)
    | none => Eval.fail (.undefinedIdentifier name)

/-- Evaluates with at most `calls` nested calls. -/
def evalFor : (calls : Nat) → Env → Expr → Eval Value
  | 0, env, e => e.evalWith env (env.callWith fun _ _ => Eval.lift (.error (.defect .overflow)))
  | calls + 1, env, e => e.evalWith env (env.callWith (evalFor calls))

/-- Evaluates an expression in an environment. -/
def Expr.eval (env : Env) (e : Expr) : Eval Value := evalFor env.callsLeft env e

/-- Calls a function with arguments. -/
def Env.call (env : Env) (name : String) (args : List Value) : Eval Value :=
  env.callWith Expr.eval name args

/-- Only environments one call deeper are asked for, and none at the limit. -/
theorem Env.callWith_congr {run run' : Env → Expr → Eval Value} (env : Env)
    (h : env.callDepth < env.maxCallDepth →
      ∀ bindings body, run (env.scope bindings) body = run' (env.scope bindings) body)
    (name : String) (args : List Value) :
    env.callWith run name args = env.callWith run' name args := by
  unfold Env.callWith
  split
  · split
    · rfl
    · split
      · rfl
      · exact h (by omega) _ _
  · rfl

/-- Evaluation is `evalWith` with calls answered by the environment itself. -/
theorem Expr.eval_eq (env : Env) (e : Expr) : e.eval env = e.evalWith env env.call := by
  have step : ∀ run, (env.callDepth < env.maxCallDepth → ∀ bindings body,
      run (env.scope bindings) body = Expr.eval (env.scope bindings) body) →
      env.callWith run = env.call := by
    intro run h
    funext name args
    exact env.callWith_congr h name args
  unfold Expr.eval
  cases hc : env.callsLeft with
  | zero =>
    rw [evalFor, step]
    intro h
    simp only [Env.callsLeft] at hc
    omega
  | succ n =>
    rw [evalFor, step]
    intro _ bindings body
    rw [Expr.eval, Env.callsLeft_scope, hc, Nat.add_sub_cancel]

end

end DiceNotation
