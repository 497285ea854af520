import DiceNotation.Proofs.Failures

/-!
An error about a number of arguments names two numbers that differ.

Only a call raises such an error: that of a user function with the number of its parameters and the
number of its arguments, and that of a function built in which takes one. So however calls are nested,
and whatever stands in variables and literals, no evaluation fails with an error of this kind whose
numbers are equal (`Expr.eval_truthful`). Hence a call fails with the error about its own numbers
exactly if they differ (`Env.call_arityMismatch_iff`).
-/

namespace DiceNotation

open Outcome

/-- Not an error about a number of arguments that is the number expected. -/
def CountsDiffer (f : Failure) : Prop :=
  ∀ (name : Form) (expected found : Int),
    f = .error (.arityMismatch name (.int expected) (.int found)) → expected ≠ found

/-- Errors of other kinds say nothing about numbers of arguments. -/
theorem countsDiffer_of_ne {e : Error}
    (h : ∀ name expected found, e ≠ .arityMismatch name expected found) : CountsDiffer (.error e) :=
  fun _ _ _ equal => absurd (Failure.error.inj equal) (h _ _ _)

theorem countsDiffer_defect (x : Defect) : CountsDiffer (.defect x) := fun _ _ _ h => by cases h

theorem Elementary.countsDiffer {f : Failure} (h : Elementary f) : CountsDiffer f := by
  cases h with
  | defect x => exact countsDiffer_defect x
  | fault op f => cases f <;> exact countsDiffer_of_ne (by simp [Fault.toError])
  | builtinArity b differ =>
    intro name expected found h equal
    cases h
    exact differ equal.symm
  | _ => exact countsDiffer_of_ne (by simp)

section

variable [Host]

theorem refuseBeyond_truthful (limit : Int) (op detail : Form) :
    Ensures CountsDiffer (fun _ : Value => True)
      (refuseBeyond limit (.invalidOperation op detail)) :=
  ensures_refuseBeyond (fun _ => countsDiffer_of_ne (by simp)) (countsDiffer_defect _)

/-- The numbers of the errors of all steps differ. -/
theorem FailureRules.truthful (env : Env) : FailureRules CountsDiffer env where
  elementary h := h.countsDiffer
  roll count sides d := by
    refine env.rollOperands_cases count sides d ?_ ?_ ?_ ?_ ?_
    · exact fun _ => countsDiffer_of_ne (by simp)
    · exact fun _ _ => countsDiffer_of_ne (by simp)
    · exact fun _ _ _ => refuseBeyond_truthful ..
    · exact fun _ _ _ x _ => countsDiffer_defect x
    · exact fun _ _ _ _ _ _ _ => trivial
  arity name expected found differ := by
    intro _ _ _ h equal
    cases h
    exact differ (Int.ofNat.inj equal.symm)
  depth name := refuseBeyond_truthful ..

/-- No evaluation fails with an error about numbers of arguments that are equal. -/
theorem Expr.eval_truthful (env : Env) (e : Expr) :
    Eval.Ensures CountsDiffer (fun _ => True) (e.eval env) :=
  (FailureRules.truthful env).eval e

theorem Env.call_truthful (env : Env) (name : String) (args : List Value) :
    Eval.Ensures CountsDiffer (fun _ => True) (env.call name args) :=
  (FailureRules.truthful env).call name args

/-- A call of a user function fails with the error about its own numbers exactly if there are not as many
    arguments as parameters. -/
theorem Env.call_arityMismatch_iff {env : Env} {name : String} {f : Function}
    (hf : env.funs.get? name = some f) (args : List Value) (d : Dice) :
    (env.call name args d).outcome =
        fail (.arityMismatch name (.int f.arity) (.int args.length)) ↔
      args.length ≠ f.arity := by
  constructor
  · intro h equal
    have truthful := env.call_truthful name args d
    rw [h] at truthful
    exact truthful _ _ _ rfl (by rw [equal])
  · intro differ
    rw [call_of_user hf, callUser, if_pos differ]
    rfl

end

end DiceNotation
