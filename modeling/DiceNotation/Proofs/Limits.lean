import DiceNotation.Proofs.Dependence

/-!
What the limits of an environment do.

A limit is looked at in two places, where a user function is called and where dice are rolled, and
there all it does is to refuse. A refusal ends the evaluation, for nothing takes up a failure. So an
evaluation that is not refused is the same under every higher limit (`eval_withLimits`): this holds
of a roll and of a call, and is kept when evaluations are put together (`Extends.composed`).
-/

namespace DiceNotation

open Unlimited

/-- The environment with other limits. -/
def Env.withLimits (env : Env) (calls dice : Int) : Env :=
  { env with maxCallDepth := calls, maxRollCount := dice }

/-- The failure is that of a call or a roll beyond the limits of the environment. -/
def Env.Refuses (env : Env) (f : Failure) : Prop :=
  (∃ name : String, f = .error
      (.invalidOperation name ("call depth exceeded " ++ toString env.maxCallDepth))) ∨
    f = .error (.invalidOperation InfixOp.dice
      ("cannot roll more than " ++ toString env.maxRollCount ++ " dice"))

/-- The second evaluation is the first, where that does not end in a refusal. -/
def Eval.Extends (Refusal : Failure → Prop) {α : Type} (x y : Eval α) : Prop :=
  ∀ d, (∀ f, (x d).outcome = .error f → ¬Refusal f) → y d = x d

namespace Eval.Extends

variable {Refusal : Failure → Prop} {α β : Type}

theorem refl (x : Eval α) : Extends Refusal x x := fun _ _ => rfl

/-- A refusal by the first evaluation is one by the whole, so there is none by either. -/
theorem bind {x y : Eval α} {f g : α → Eval β} (hx : Extends Refusal x y)
    (hf : ∀ a, Extends Refusal (f a) (g a)) : Extends Refusal (x >>= f) (y >>= g) := by
  intro d h
  rcases hxd : x d with ⟨e | a, d', rolls⟩
  · rw [bind_error hxd] at h ⊢
    have hy : y d = x d := hx d fun f hf => by
      rw [hxd] at hf
      exact h f (congrArg Except.error (Except.error.inj hf))
    exact bind_error (hy.trans hxd) g
  · rw [bind_ok hxd] at h ⊢
    have hy : y d = x d := hx d fun f hf => by rw [hxd] at hf; cases hf
    rw [bind_ok (hy.trans hxd), hf a d' h]

theorem composed (Refusal : Failure → Prop) : Composed fun _ x y => Extends Refusal x y :=
  ⟨fun o => refl (lift o), bind⟩

end Eval.Extends

namespace Env

variable {env : Env} {calls dice : Int}

theorem withLimits_scope (env : Env) (calls dice : Int) (bindings : List (String × Value)) :
    (env.withLimits calls dice).scope bindings = (env.scope bindings).withLimits calls dice := rfl

/-- A roll is looked at by the limit after its numbers, and then the dice fall. -/
theorem rollOperands_extends (hdice : env.maxRollCount ≤ dice) (count sides : Int) :
    Eval.Extends env.Refuses (env.rollOperands count sides)
      ((env.withLimits calls dice).rollOperands count sides) := by
  intro d
  unfold rollOperands
  by_cases hc : count < 0
  · rw [if_pos hc, if_pos hc]
    exact fun _ => rfl
  rw [if_neg hc, if_neg hc]
  by_cases hs : sides < 0
  · rw [if_pos hs, if_pos hs]
    exact fun _ => rfl
  rw [if_neg hs, if_neg hs]
  unfold roll
  by_cases hm : env.maxRollCount < count
  · rw [if_pos hm]
    exact fun h => absurd (.inr rfl) (h _ rfl)
  · have hm' : ¬(env.withLimits calls dice).maxRollCount < count := by
      show ¬dice < count
      omega
    rw [if_neg hm, if_neg hm']
    exact fun _ => rfl

/-- A call is looked at by the limit after its number of arguments, and then the body is
    evaluated. -/
theorem call_extends (hcalls : env.maxCallDepth ≤ calls)
    (hbody : env.callDepth < env.maxCallDepth → ∀ bindings (body : Expr),
      Eval.Extends env.Refuses (body.eval (env.scope bindings))
        (body.eval ((env.scope bindings).withLimits calls dice))) (name : String)
    (args : List Value) :
    Eval.Extends env.Refuses (env.call name args)
      ((env.withLimits calls dice).call name args) := by
  cases hf : env.funs.get? name with
  | none =>
    have hf' : (env.withLimits calls dice).funs.get? name = none := hf
    rw [call_of_none hf, call_of_none hf']
    exact .refl _
  | some f =>
    have hf' : (env.withLimits calls dice).funs.get? name = some f := hf
    rw [call_of_user hf, call_of_user hf']
    unfold callUser
    by_cases hlen : args.length = f.arity
    · rw [if_neg (not_not_intro hlen), if_neg (not_not_intro hlen)]
      by_cases hd : env.maxCallDepth ≤ env.callDepth
      · rw [if_pos hd]
        exact fun d h => absurd (.inl ⟨name, rfl⟩) (h _ rfl)
      · have hd' : ¬(env.withLimits calls dice).maxCallDepth ≤
            (env.withLimits calls dice).callDepth := by
          show ¬calls ≤ env.callDepth
          omega
        rw [if_neg hd, if_neg hd', withLimits_scope]
        exact hbody (Int.not_le.mp hd) _ f.body
    · rw [if_pos hlen, if_pos hlen]
      exact .refl _

end Env

theorem Expr.eval_extends {env : Env} {calls dice : Int} (hcalls : env.maxCallDepth ≤ calls)
    (hdice : env.maxRollCount ≤ dice) (e : Expr) :
    Eval.Extends env.Refuses (e.eval env)
      (e.eval (env.withLimits calls dice)) := by
  induction env using Env.deeper_induct generalizing e with
  | step env ih =>
    rw [Expr.eval_eq, Expr.eval_eq]
    refine e.evalWith_related (Eval.Extends.composed _) (fun _ _ => rfl)
      (fun _ _ _ => Env.rollOperands_extends hdice) fun name exprs _ => ?_
    exact Env.call_extends hcalls (fun hdeep bindings body => ih hdeep bindings hcalls hdice body) name

/-- Higher limits make no difference to an evaluation that was not refused at the lower ones: it has
    the same outcome and leaves the dice as it did. -/
theorem eval_withLimits (env : Env) (e : Expr) {calls dice : Int}
    (hcalls : env.maxCallDepth ≤ calls) (hdice : env.maxRollCount ≤ dice) (d : Dice)
    (h : ∀ f, (e.eval env d).outcome = .error f → ¬env.Refuses f) :
    e.eval (env.withLimits calls dice) d = e.eval env d :=
  Expr.eval_extends hcalls hdice e d h

/-- A call within a call that rolls two dice without sides, first with just these limits and then
    with higher ones. -/
theorem nested_roll_withLimits :
    let twice : Function := ⟨["n"], .op .plus (some (.var "n")) (some (.var "n"))⟩
    let pool : Function :=
      ⟨["n"], .call "twice" [.op .dice (some (.var "n")) (some (.lit (.int 0) rfl))]⟩
    let env : Env := { Env.initial with
      funs := (Bindings.empty.bind "twice" twice).bind "pool" pool
      maxCallDepth := 2, maxRollCount := 2 }
    let e : Expr := .call "pool" [.lit (.int 2) rfl]
    ∀ d, (e.eval env d).outcome = .ok (.list [.int 0, .int 0, .int 0, .int 0]) ∧
      e.eval (env.withLimits 64 100000) d = e.eval env d := by
  intro twice pool env e d
  have result : (e.eval env d).outcome = .ok (.list [.int 0, .int 0, .int 0, .int 0]) := rfl
  refine ⟨result, eval_withLimits env e (by decide) (by decide) d fun f hf => ?_⟩
  rw [result] at hf
  cases hf

end DiceNotation
