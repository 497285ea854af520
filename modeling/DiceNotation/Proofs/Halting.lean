import DiceNotation.Proofs.Machine

/-!
Every evaluation comes to a halt, and calls are nested only as deep as the limit allows.

The `body` frames of the machine are the user calls that have not returned. As many of them as lie
below a place in the stack, as much deeper than the first environment is the one at that place
(`Fits`), and each was left by a caller below the limit. So there are never more of them than calls
were left at the start (`eval_halts`).
-/

namespace DiceNotation

/-- The environment is some calls deeper than the first one and has its limit. -/
structure Env.Deeper (first : Env) (calls : Nat) (env : Env) : Prop where
  limit : env.maxCallDepth = first.maxCallDepth
  depth : env.callDepth = first.callDepth + calls

theorem Env.Deeper.scope {first env : Env} {calls : Nat} (h : first.Deeper calls env)
    (bindings : List (String × Value)) : first.Deeper (calls + 1) (env.scope bindings) := by
  refine ⟨h.limit, ?_⟩
  have hd := h.depth
  simp only [Env.scope]
  omega

namespace Machine

variable {first : Env}

/-- How many user calls have not returned. -/
def nested : List Frame → Nat
  | [] => 0
  | .body _ :: stack => nested stack + 1
  | _ :: stack => nested stack

/-- The environment of the frame is as deep as it should be. A caller is below the limit. -/
def Frame.Deep (first : Env) (calls : Nat) : Frame → Prop
  | .rest env .. | .count env _ | .sides env _ | .left env .. => first.Deeper calls env
  | .right .. => True
  | .body caller => first.Deeper calls caller ∧ caller.callDepth < caller.maxCallDepth

/-- The environment of the control is as deep as it should be. -/
def Control.Deep (first : Env) (calls : Nat) : Control → Prop
  | .eval env _ | .all env .. | .call env .. => first.Deeper calls env
  | .give _ => True

/-- Every frame is as deep as the calls below it. -/
def StackDeep (first : Env) : List Frame → Prop
  | [] => True
  | f :: stack => f.Deep first (nested stack) ∧ StackDeep first stack

/-- Frames and control are as deep as the calls below them. -/
structure Fits (first : Env) (m : Machine) : Prop where
  control : m.control.Deep first (nested m.stack)
  stack : StackDeep first m.stack

/-! ### One step -/

variable {m : Machine}

theorem Fits.turn (hs : StackDeep first m.stack) {c : Control}
    (hc : c.Deep first (nested m.stack)) : Fits first (m.turn c) := ⟨hc, hs⟩

theorem Fits.push (hs : StackDeep first m.stack) {f : Frame} {c : Control}
    (hf : f.Deep first (nested m.stack)) (hc : c.Deep first (nested (f :: m.stack))) :
    Fits first (m.push f c) := ⟨hc, hf, hs⟩

theorem visit_fits {env : Env} (hs : StackDeep first m.stack)
    (henv : first.Deeper (nested m.stack) env) (e : Option Expr) : Fits first (m.visit env e) := by
  unfold visit
  split
  · exact .turn hs trivial
  · exact .turn hs trivial
  · exact .turn hs henv
  · exact .turn hs trivial
  · exact .turn hs henv
  · exact .push hs henv henv
  · exact .push hs henv henv
  · exact .turn hs trivial
  · exact .turn hs trivial
  · exact .turn hs trivial

theorem enter_fits [Host] {env : Env} (hs : StackDeep first m.stack)
    (henv : first.Deeper (nested m.stack) env) (name : String) (args : List Value) :
    Fits first (m.enter env name args) := by
  unfold enter
  cases env.funs.get? name with
  | none => cases env.builtins.get? name <;> exact .turn hs trivial
  | some f =>
    dsimp only
    split
    · exact .turn hs trivial
    split
    · exact .turn hs trivial
    · exact .push hs ⟨henv, by omega⟩ (henv.scope _)

theorem resume_fits [Host] {f : Frame} (hs : StackDeep first m.stack)
    (hf : f.Deep first (nested m.stack)) (w : Option Value) : Fits first (m.resume w f) := by
  cases f with
  | rest env name? done es => exact .turn hs hf
  | count env sides =>
    dsimp only [resume]
    cases diceOperand w with
    | ok n => exact .push hs hf hf
    | error e => exact .turn hs trivial
  | sides env n =>
    dsimp only [resume]
    cases diceOperand w with
    | ok k => exact ⟨trivial, hs⟩
    | error e => exact .turn hs trivial
  | left env op right => exact .push hs trivial hf
  | right op left => exact .turn hs trivial
  | body caller => exact .turn hs trivial

theorem step_fits [Host] (h : Fits first m) : Fits first m.step := by
  obtain ⟨control, stack, d, rolls⟩ := m
  obtain ⟨hc, hs⟩ := h
  cases control with
  | eval env e => exact visit_fits hs hc e
  | all env name? done es =>
    cases es with
    | cons e es => exact .push hs hc hc
    | nil =>
      cases name? with
      | none => exact .turn hs trivial
      | some name => exact .turn hs hc
  | call env name args => exact enter_fits hs hc name args
  | give o =>
    cases stack with
    | nil => cases o <;> exact ⟨hc, hs⟩
    | cons f stack =>
      cases o with
      | error e => exact ⟨trivial, hs.2⟩
      | ok w => exact resume_fits hs.2 hs.1 w

/-! ### All steps -/

theorem run_fits [Host] (h : Fits first m) (n : Nat) : Fits first (m.run n) := by
  induction n generalizing m with
  | zero => exact h
  | succ n ih => exact ih (step_fits h)

theorem start_fits (env : Env) (e : Expr) (d : Dice) : Fits env (start env e d) :=
  ⟨⟨rfl, (Int.add_zero _).symm⟩, trivial⟩

theorem StackDeep.nested_le : ∀ {stack : List Frame}, StackDeep first stack →
    nested stack ≤ (first.maxCallDepth - first.callDepth).toNat
  | [], _ => Nat.zero_le _
  | f :: stack, h => by
    have ih := h.2.nested_le
    cases f with
    | body caller =>
      obtain ⟨⟨hlimit, hdepth⟩, hlt⟩ := h.1
      simp only [nested]
      omega
    | _ => exact ih

theorem StackDeep.caller : ∀ {stack : List Frame}, StackDeep first stack →
    ∀ caller, .body caller ∈ stack → caller.callDepth < caller.maxCallDepth
  | f :: stack, h, caller, hmem => by
    rcases List.mem_cons.mp hmem with rfl | hmem
    · exact h.1.2
    · exact h.2.caller caller hmem

/-- Every evaluation comes to a halt, with what `Expr.eval` gives and whatever the functions do. Up
    to then no body is evaluated by a call made at the limit of depth, and never are more user calls
    nested than are left in the environment at the start. -/
theorem eval_halts [Host] (env : Env) (e : Expr) (d : Dice) :
    (∃ n, ∀ m, n ≤ m → (start env e d).run m = halted (e.eval env d)) ∧
      ∀ n, nested ((start env e d).run n).stack ≤ (env.maxCallDepth - env.callDepth).toNat ∧
        ∀ caller, .body caller ∈ ((start env e d).run n).stack →
          caller.callDepth < caller.maxCallDepth := by
  refine ⟨?_, fun n => ?_⟩
  · obtain ⟨n, hn⟩ := reaches_eval env e d
    refine ⟨n, fun m hm => ?_⟩
    obtain ⟨k, rfl⟩ := Nat.exists_eq_add_of_le hm
    rw [run_add, hn, run_halted]
  · have fits := run_fits (start_fits env e d) n
    exact ⟨fits.stack.nested_le, fits.stack.caller⟩

end Machine

end DiceNotation
