import DiceNotation.Proofs.Machine

/-!
The pools of an evaluation.

A pool is made when the machine takes up the frame in which the sides of dice are awaited and the
step gives a list of integers: its faces are read off this list (`pool?`), not off the rolls that are
reported. No other step reports a roll, and this one reports just that pool (`step_rolls`). So, step
after step, the rolls of an evaluation are its pools in the order in which they were made
(`eval_pools`).
-/

namespace DiceNotation

open Unlimited

/-- The integer that a value is. -/
def Value.int? : Value → Option Int
  | .number (.int n) => some n
  | _ => none

theorem Value.mapM_int? (ns : List Int) : (ns.map Value.int).mapM Value.int? = some ns := by
  induction ns with
  | nil => rfl
  | cons n ns ih =>
    rw [List.map_cons, List.mapM_cons, ih]
    rfl

namespace Machine

/-- The pool that the next step gives, if it gives one. -/
def pool? (m : Machine) : Option Roll :=
  match m.control, m.stack with
  | .give (.ok w), .sides _ count :: _ =>
    match diceOperand w, m.step.control with
    | .ok sides, .give (.ok (some (.list items))) =>
      (items.mapM Value.int?).map fun faces => ⟨count, sides, faces⟩
    | _, _ => none
  | _, _ => none

/-- The pools that some steps give, in their order. -/
def pools (m : Machine) : Nat → List Roll
  | 0 => []
  | n + 1 => m.pool?.toList ++ m.step.pools n

/-! ### One step -/

theorem visit_rolls (m : Machine) (env : Env) (e : Option Expr) :
    (m.visit env e).rolls = m.rolls := by
  unfold visit
  split <;> rfl

theorem enter_rolls (m : Machine) (env : Env) (name : String) (args : List Value) :
    (m.enter env name args).rolls = m.rolls := by
  unfold enter
  split
  · split
    · rfl
    · split <;> rfl
  · split <;> rfl

theorem all_rolls (m : Machine) {env : Env} {name? : Option String} {done : List Value}
    {es : List Expr} (h : m.control = .all env name? done es) : m.step.rolls = m.rolls := by
  unfold step
  rw [h]
  cases es with
  | cons e es => rfl
  | nil => cases name? <;> rfl

/-- The step that takes up the number of sides. -/
theorem sides_rolls (w : Option Value) (env : Env) (count : Int) (stack : List Frame) (d : Dice)
    (rolls : List Roll) :
    let m : Machine := ⟨.give (.ok w), .sides env count :: stack, d, rolls⟩
    m.step.rolls = m.rolls ++ m.pool?.toList := by
  intro m
  have next : m.step = (⟨m.control, stack, d, rolls⟩ : Machine).resume w (.sides env count) := rfl
  have pool : m.pool? = match diceOperand w, m.step.control with
      | .ok sides, .give (.ok (some (.list items))) =>
        (items.mapM Value.int?).map fun faces => ⟨count, sides, faces⟩
      | _, _ => none := rfl
  rw [pool, next, resume]
  cases diceOperand w with
  | error f => exact (List.append_nil rolls).symm
  | ok sides =>
    -- a refusal gives no list and reports nothing, a roll gives the faces that it reports
    simp only [answer, Eval.bind_pure_apply]
    refine env.rollOperands_cases_unlimited count sides d ?_ ?_ ?_ ?_
    · exact fun _ => rfl
    · exact fun _ _ => rfl
    · exact fun _ _ _ => rfl
    · intro _ _ _ faces d' _
      show rolls ++ [_] = rolls ++ (((faces.map Value.int).mapM Value.int?).map _).toList
      rw [Value.mapM_int?]
      rfl

theorem silent_rolls {m : Machine} (hpool : m.pool? = none) (h : m.step.rolls = m.rolls) :
    m.step.rolls = m.rolls ++ m.pool?.toList := by
  rw [hpool, h, Option.toList_none, List.append_nil]

/-- A step reports the pool that it gives, and nothing else. -/
theorem step_rolls (m : Machine) : m.step.rolls = m.rolls ++ m.pool?.toList := by
  rcases m with ⟨control, stack, d, rolls⟩
  cases control with
  | eval env e => exact silent_rolls rfl (visit_rolls _ env e)
  | all env name? done es => exact silent_rolls rfl (all_rolls _ rfl)
  | call env name args => exact silent_rolls rfl (enter_rolls _ env name args)
  | give o =>
    rcases stack with _ | ⟨frame, stack⟩
    · cases o <;> exact silent_rolls rfl rfl
    rcases o with f | w
    · exact silent_rolls rfl rfl
    cases frame with
    | sides env count => exact sides_rolls w env count stack d rolls
    | count env sides =>
      refine silent_rolls rfl ?_
      show (resume _ w (.count env sides)).rolls = rolls
      rw [resume]
      cases diceOperand w <;> rfl
    | _ => exact silent_rolls rfl rfl

/-! ### All steps -/

theorem run_rolls (n : Nat) (m : Machine) : (m.run n).rolls = m.rolls ++ m.pools n := by
  induction n generalizing m with
  | zero => rw [run, pools, List.append_nil]
  | succ n ih => rw [run, pools, ih, step_rolls, List.append_assoc]

end Machine

/-- The pools that are made from the start of an evaluation to its halt. -/
def Expr.Pools (env : Env) (e : Expr) (d : Dice) (pools : List Roll) : Prop :=
  ∃ n t, (Machine.start env e d).run n = .halted t ∧ (Machine.start env e d).pools n = pools

/-- The rolls of an evaluation are its pools. -/
theorem Expr.eval_pools (env : Env) (e : Expr) (d : Dice) : e.Pools env d (e.eval env d).rolls := by
  obtain ⟨n, hn⟩ := Machine.reaches_eval env e d
  have hrolls := Machine.run_rolls n (.start env e d)
  rw [hn] at hrolls
  exact ⟨n, e.eval env d, hn, hrolls.symm⟩

end DiceNotation
