import Mathlib.Algebra.Ring.Int.Defs
import DiceNotation.Proofs.Evaluation

/-!
Integers stay exact.

Sums, differences, products and magnitudes of integers are integers, however large, and none of them
has a fault. So integers with the operators other than division and power make up a closed fragment
in which no fault is expected (`Fragment.exact_closed`), and an evaluation that starts among them
meets no real on its way: not in pools and sums, not in functions built in and not in bodies
(`eval_exact`).
-/

namespace DiceNotation

open Unlimited

open Outcome

/-- Integers, and the operators that give integers for integers. -/
def Fragment.exact : Fragment := ⟨fun n => n.isInt = true, fun o => o ≠ .div ∧ o ≠ .pow, fun _ => True⟩

namespace Number

theorem exists_ints : ∀ {ns : List Number}, (∀ n ∈ ns, n.isInt = true) →
    ∃ ks : List Int, ns = ks.map int
  | [], _ => ⟨[], rfl⟩
  | .int k :: ns, h => by
    obtain ⟨ks, rfl⟩ := exists_ints (List.forall_mem_cons.mp h).2
    exact ⟨k :: ks, rfl⟩
  | .real _ :: _, h => nomatch (List.forall_mem_cons.mp h).1

/-- The total of integers is their sum, from wherever it starts. -/
theorem foldlM_plus_int (ks : List Int) (m : Int) :
    (ks.map int).foldlM plus (int m) = .ok (int (m + ks.sum)) := by
  induction ks generalizing m with
  | nil =>
    rw [List.sum_nil, Int.add_zero]
    rfl
  | cons k ks ih =>
    have step : plus (int m) (int k) = .ok (int (m + k)) := rfl
    rw [List.map_cons, List.foldlM_cons, step, List.sum_cons, ← Int.add_assoc]
    exact ih (m + k)

theorem total_int (ks : List Int) : total (ks.map int) = .ok (int ks.sum) := by
  rw [total, foldlM_plus_int, Int.zero_add]
  rfl

end Number

/-- An operation that is total on integers keeps to them. -/
theorem Fragment.exact_binary {fault : Fault → Prop} {f : Number → Number → Except Fault Number}
    {g : Int → Int → Int} (h : ∀ m n : Int, f (.int m) (.int n) = .ok (.int (g m n))) :
    Fragment.exact.Binary fault f := by
  intro m n hm hn
  cases m with
  | real x => cases hm
  | int m =>
    cases n with
    | real y => cases hn
    | int n =>
      rw [h]
      rfl

theorem Fragment.exact_closed : Fragment.exact.Closed fun _ _ => False where
  int _ := rfl
  abs m hm := by
    cases m with
    | int m => rfl
    | real x => cases hm
  total op _ ns hns := by
    obtain ⟨ks, rfl⟩ := Number.exists_ints hns
    rw [Number.total_int]
    rfl
  keeps o ho := by
    cases o with
    | dice => trivial
    | plus => exact exact_binary (g := (· + ·)) fun _ _ => rfl
    | minus =>
      refine ⟨exact_binary (g := (· - ·)) fun _ _ => rfl, fun m hm => ?_⟩
      cases m with
      | int m => rfl
      | real x => cases hm
    | mul => exact exact_binary (g := (· * ·)) fun _ _ => rfl
    | div => exact absurd rfl ho.1
    | pow => exact absurd rfl ho.2

/-! ### Faults -/

/-- The error is that of a fault of numbers, in whatever operation: a division by zero, or a result
    that is too large or no real number. -/
def Error.IsFault (e : Error) : Prop :=
  ∃ op : Form, e = .divisionByZero op ∨ e = .invalidOperation op "result is too large" ∨
    e = .invalidOperation op "result is not a real number"

/-- The details of faults start with the same letter. -/
theorem Error.not_isFault_invalidOperation {op : Form} {detail : String}
    (h : detail.toList.head? ≠ some 'r') : ¬(invalidOperation op detail).IsFault := by
  rintro ⟨_, h' | h' | h'⟩
  · cases h'
  · cases h'
    exact h rfl
  · cases h'
    exact h rfl

/-- Where no fault is expected, none is among the failures. -/
theorem Raised.not_isFault {name : String → Prop} {f : Failure}
    (h : Raised name (fun _ _ => False) f) : ∃ e, f = .error e ∧ ¬e.IsFault := by
  cases h with
  | fault h => exact h.elim
  | tooManyDice limit => exact ⟨_, rfl, Error.not_isFault_invalidOperation (by simp)⟩
  | tooDeep limit => exact ⟨_, rfl, Error.not_isFault_invalidOperation (by simp)⟩
  | noValues b => exact ⟨_, rfl, Error.not_isFault_invalidOperation (by simp)⟩
  | _ => exact ⟨_, rfl, by simp [Error.IsFault]⟩

/-- Variables, bodies and an expression that hold integers and neither divide nor raise to a power:
    evaluation gives a value without a real in it, or an error that is not that of a fault, however
    large the integers become. -/
theorem eval_exact (env : Env) (henv : env.In .exact) (e : Expr) (he : e.In .exact) (d : Dice) :
    Ensures (fun f => ∃ e, f = .error e ∧ ¬e.IsFault) (Value.In .exact) (e.eval env d).outcome := by
  have h := e.eval_in Fragment.exact_closed henv he d
  exact h.imp (fun f hf => hf.not_isFault) fun v hv => hv

/-- The fourth power of an integer beyond the range of reals by two calls, in a list that is added
    up. -/
theorem fourth_power_exact :
    let n : Int := 10 ^ 400
    let square : Function := ⟨["n"], .op .mul (some (.var "n")) (some (.var "n"))⟩
    let env : Env := { Env.initial with
      vars := Bindings.empty.bind "x" (.int n), funs := Bindings.empty.bind "square" square }
    let e : Expr := .call "sum" [.list [.call "square" [.call "square" [.var "x"]],
      .op .minus none (some (.var "x"))]]
    env.In .exact ∧ e.In .exact ∧ ∀ d,
      (e.eval env d).outcome = .ok (.int (0 + n * n * (n * n) + -n)) ∧
      Ensures (fun f => ∃ e, f = .error e ∧ ¬e.IsFault) (Value.In .exact)
        (e.eval env d).outcome := by
  intro n square env e
  have hbody : square.body.In .exact := by
    refine ⟨by simp [square], ?_, fun _ _ => trivial, fun _ _ _ => trivial⟩
    simp +contextual [square, Fragment.exact]
  have he : e.In .exact := by
    refine ⟨by simp [e], ?_, fun _ _ => trivial, fun _ _ _ => trivial⟩
    simp +contextual [e, Fragment.exact]
  have hvars := Bindings.forall_bind (P := Value.In .exact) Bindings.forall_empty (y := .int n) rfl "x"
  have hfuns := Bindings.forall_bind (P := fun f : Function => f.body.In .exact)
    Bindings.forall_empty hbody "square"
  have henv : env.In .exact := ⟨hvars, hfuns⟩
  refine ⟨henv, he, fun d => ⟨?_, eval_exact env henv e he d⟩⟩
  rfl

end DiceNotation
