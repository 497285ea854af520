import Mathlib.Algebra.Order.BigOperators.Group.List
import Mathlib.Algebra.Ring.Int.Defs
import DiceNotation.Proofs.Exact
import DiceNotation.Proofs.Faces

/-!
Formulas of dice stay within their span.

A formula is put together from whole numbers and pools of dice by sums, differences and products
(`Formula`). Interval arithmetic gives it a span. Whatever the dice show, a formula comes to an
integer or to a list of integers, and what the value stands for as an operand, the integer or the
sum of the list, is in the span (`eval_mem_span`). By induction on the formula: there is one lemma for
each operator, and for the product the one about corners.
-/

namespace DiceNotation

open Unlimited

/-! ### Interval arithmetic -/

/-- The integers between two bounds, which are among them. -/
structure Span where
  lo : Int
  hi : Int
  le : lo ≤ hi
  deriving DecidableEq

namespace Span

instance : Membership Int Span := ⟨fun I x => I.lo ≤ x ∧ x ≤ I.hi⟩

instance : Add Span := ⟨fun I J => ⟨I.lo + J.lo, I.hi + J.hi, Int.add_le_add I.le J.le⟩⟩

instance : Neg Span := ⟨fun I => ⟨-I.hi, -I.lo, Int.neg_le_neg I.le⟩⟩

instance : Sub Span := ⟨fun I J => ⟨I.lo - J.hi, I.hi - J.lo, Int.sub_le_sub I.le J.le⟩⟩

/-- From the least to the greatest product of the bounds. -/
instance : Mul Span := ⟨fun I J =>
  ⟨min (min (I.lo * J.lo) (I.lo * J.hi)) (min (I.hi * J.lo) (I.hi * J.hi)),
    max (max (I.lo * J.lo) (I.lo * J.hi)) (max (I.hi * J.lo) (I.hi * J.hi)), by omega⟩⟩

/-- One integer alone. -/
def point (k : Int) : Span := ⟨k, k, Int.le_refl k⟩

/-- The span of the sum of a pool. -/
def pool (count : Nat) : (sides : Nat) → Span
  | 0 => point 0
  | s + 1 => ⟨count, count * (s + 1 : Nat), by
      have h := Nat.le_mul_of_pos_right count s.succ_pos
      exact_mod_cast h⟩

variable {I J : Span} {x y : Int}

theorem add_mem (hx : x ∈ I) (hy : y ∈ J) : x + y ∈ I + J :=
  ⟨Int.add_le_add hx.1 hy.1, Int.add_le_add hx.2 hy.2⟩

theorem neg_mem (hx : x ∈ I) : -x ∈ -I := ⟨Int.neg_le_neg hx.2, Int.neg_le_neg hx.1⟩

theorem sub_mem (hx : x ∈ I) (hy : y ∈ J) : x - y ∈ I - J :=
  ⟨Int.sub_le_sub hx.1 hy.2, Int.sub_le_sub hx.2 hy.1⟩

/-- Between two bounds, a product with the same factor is between those of the bounds; which of
    these is the lower one depends on the sign of the factor. -/
theorem mul_between (hx : x ∈ I) (y : Int) :
    min (I.lo * y) (I.hi * y) ≤ x * y ∧ x * y ≤ max (I.lo * y) (I.hi * y) := by
  obtain ⟨hlo, hhi⟩ := hx
  rcases Int.le_total 0 y with hy | hy
  · have lower := Int.mul_le_mul_of_nonneg_right hlo hy
    have upper := Int.mul_le_mul_of_nonneg_right hhi hy
    omega
  · have lower := Int.mul_le_mul_of_nonpos_right hhi hy
    have upper := Int.mul_le_mul_of_nonpos_right hlo hy
    omega

/-- A product is between those of one factor with the bounds of the other, and each of these is
    between two of the corners. -/
theorem mul_mem (hx : x ∈ I) (hy : y ∈ J) : x * y ∈ I * J := by
  have between := mul_between hx y
  have left := mul_between hy I.lo
  have right := mul_between hy I.hi
  rw [Int.mul_comm y, Int.mul_comm J.lo, Int.mul_comm J.hi] at left right
  have lower : min (min (I.lo * J.lo) (I.lo * J.hi)) (min (I.hi * J.lo) (I.hi * J.hi)) ≤ x * y := by
    omega
  have upper : x * y ≤ max (max (I.lo * J.lo) (I.lo * J.hi)) (max (I.hi * J.lo) (I.hi * J.hi)) := by
    omega
  exact ⟨lower, upper⟩

/-- The sum of a pool of faces. -/
theorem sum_mem_pool (count sides : Nat) (d : Dice) :
    (d.faces count sides).1.sum ∈ pool count sides := by
  cases sides with
  | zero =>
    rw [Dice.faces, if_pos rfl, List.sum_replicate, nsmul_zero]
    exact ⟨Int.le_refl 0, Int.le_refl 0⟩
  | succ s =>
    have hface := Dice.mem_faces s.succ_pos count d
    have hlength := d.length_faces count (s + 1)
    have lower := List.card_nsmul_le_sum _ 1 fun x hx => (hface x hx).1
    have upper := List.sum_le_card_nsmul _ ((s + 1 : Nat) : Int) fun x hx => (hface x hx).2
    rw [hlength, Int.nsmul_eq_mul] at lower upper
    rw [Int.mul_one] at lower
    exact ⟨lower, upper⟩

end Span

/-! ### Formulas -/

/-- Whole numbers and pools of dice, put together by arithmetic. -/
inductive Formula where
  | const (k : Int)
  | roll (count sides : Nat)
  | plus (f g : Formula)
  | minus (f g : Formula)
  | times (f g : Formula)
  | pos (f : Formula)
  | neg (f : Formula)

namespace Formula

/-- The formula as an expression. -/
def toExpr : Formula → Expr
  | const k => .lit (.int k) rfl
  | roll n s => .op .dice (some (.lit (.int n) rfl)) (some (.lit (.int s) rfl))
  | plus f g => .op .plus (some f.toExpr) (some g.toExpr)
  | minus f g => .op .minus (some f.toExpr) (some g.toExpr)
  | times f g => .op .mul (some f.toExpr) (some g.toExpr)
  | pos f => .op .plus none (some f.toExpr)
  | neg f => .op .minus none (some f.toExpr)

/-- No pool has more dice than the limit. -/
def Fits (limit : Int) : Formula → Prop
  | const _ => True
  | roll n _ => n ≤ limit
  | plus f g | minus f g | times f g => f.Fits limit ∧ g.Fits limit
  | pos f | neg f => f.Fits limit

/-- The integers that the formula may come to, by its bounds. -/
def span : Formula → Span
  | const k => .point k
  | roll n s => .pool n s
  | plus f g => f.span + g.span
  | minus f g => f.span - g.span
  | times f g => f.span * g.span
  | pos f => f.span
  | neg f => -f.span

end Formula

/-! ### Totals -/

/-- The value is an integer, or a list of integers that add up to it. -/
inductive Value.Totals : Value → Int → Prop
  | int (n : Int) : Totals (.int n) n
  | pool (ns : List Int) : Totals (.list (ns.map .int)) ns.sum

/-- The value is an integer or a list of integers, with a total in the span. -/
def Value.Within (I : Span) (v : Value) : Prop := ∃ t ∈ I, v.Totals t

namespace Value.Totals

variable {v w : Value} {m n : Int}

/-- As an operand the value stands for its total. -/
theorem operand (h : v.Totals n) (op : InfixOp) : v.operand op = .ok (.number (.int n)) := by
  cases h with
  | int n => rfl
  | pool ns =>
    have numbers : ns.map Value.int = (ns.map Number.int).map number := (List.map_map ..).symm
    rw [numbers, operand_numbers, Number.total_int]
    rfl

theorem binary (hv : v.Totals m) (hw : w.Totals n) {op : InfixOp}
    {f : Scalar → Scalar → Outcome Scalar} {k : Int}
    (h : f (.number (.int m)) (.number (.int n)) = .ok (.number (.int k))) :
    Value.binary op f v w = .ok (.int k) := by
  rw [Value.binary, hv.operand, hw.operand]
  show (f _ _ >>= _) = _
  rw [h]
  rfl

/-- Joined pools have the sum of their totals. -/
theorem add (hv : v.Totals m) (hw : w.Totals n) :
    Outcome.Ensures (fun _ => False) (Totals · (m + n)) (v.add w) := by
  have number : Value.binary .plus Scalar.add v w = .ok (.int (m + n)) := hv.binary hw rfl
  cases hv with
  | int m =>
    have apart : (Value.int m).add w = Value.binary .plus Scalar.add (.int m) w := by
      cases hw <;> rfl
    rw [apart, number]
    exact .int (m + n)
  | pool ms =>
    cases hw with
    | int n =>
      have apart : (Value.list (ms.map Value.int)).add (.int n) =
        Value.binary .plus Scalar.add (.list (ms.map Value.int)) (.int n) := rfl
      rw [apart, number]
      exact .int (ms.sum + n)
    | pool ns =>
      have joined := pool (ms ++ ns)
      rw [List.map_append, List.sum_append] at joined
      exact joined

theorem sub (hv : v.Totals m) (hw : w.Totals n) : v.sub w = .ok (.int (m - n)) := hv.binary hw rfl

theorem mul (hv : v.Totals m) (hw : w.Totals n) : v.mul w = .ok (.int (m * n)) := hv.binary hw rfl

theorem neg (hv : v.Totals n) : v.neg = .ok (.int (-n)) := by
  rw [Value.neg, hv.operand]
  rfl

theorem given (h : v.Totals n) : (some v).bind Value.given? = some v := by
  cases h <;> rfl

end Value.Totals

/-! ### Evaluation -/

namespace Formula

open Outcome

variable {env : Env} {call : String → List Value → Eval Value} {I J K : Span}

theorem ensures_operand {e : Expr}
    (h : Eval.Ensures (fun _ => False) (Value.Within I) (e.evalWith env call)) :
    Eval.Ensures (fun _ => False) (fun o => ∃ v, o = some v ∧ v.Within I)
      (evalOptionWith env call (some e)) := by
  rw [evalOptionWith]
  exact h.bind fun v hv => Eval.ensures_pure ⟨v, rfl, hv⟩

/-- An operator with two operands, by what it does to values with totals. -/
theorem ensures_binary {o : InfixOp} (ho : o ≠ .dice) {l r : Expr}
    (hl : Eval.Ensures (fun _ => False) (Value.Within I) (l.evalWith env call))
    (hr : Eval.Ensures (fun _ => False) (Value.Within J) (r.evalWith env call))
    (h : ∀ v w m n, m ∈ I → n ∈ J → v.Totals m → w.Totals n →
      Outcome.Ensures (fun _ => False) (Value.Within K) (reduce o (some v) (some w))) :
    Eval.Ensures (fun _ => False) (Value.Within K)
      ((Expr.op o (some l) (some r)).evalWith env call) := by
  rw [Expr.evalWith_op ho]
  refine (ensures_operand hl).bind fun a ha => (ensures_operand hr).bind fun b hb => ?_
  obtain ⟨v, rfl, m, hm, hv⟩ := ha
  obtain ⟨w, rfl, n, hn, hw⟩ := hb
  exact Eval.ensures_lift (h v w m n hm hn hv hw)

/-- An operator with its right operand alone. -/
theorem ensures_unary {o : InfixOp} (ho : o ≠ .dice) {r : Expr}
    (hr : Eval.Ensures (fun _ => False) (Value.Within I) (r.evalWith env call))
    (h : ∀ v n, n ∈ I → v.Totals n →
      Outcome.Ensures (fun _ => False) (Value.Within K) (reduce o none (some v))) :
    Eval.Ensures (fun _ => False) (Value.Within K)
      ((Expr.op o none (some r)).evalWith env call) := by
  rw [Expr.evalWith_op ho, evalOptionWith, pure_bind]
  refine (ensures_operand hr).bind fun b hb => ?_
  obtain ⟨v, rfl, n, hn, hv⟩ := hb
  exact Eval.ensures_lift (h v n hn hv)

theorem evalWith_roll {n : Nat} (h : (n : Int) ≤ env.maxRollCount) (s : Nat) (d : Dice) :
    (roll n s).toExpr.evalWith env call d =
      ⟨.ok (.list ((d.faces n s).1.map .int)), (d.faces n s).2, [⟨n, s, (d.faces n s).1⟩]⟩ := by
  have operands : (roll n s).toExpr.evalWith env call = env.rollOperands n s := by
    simp only [toExpr, Expr.evalWith, evalOptionWith, pure_bind]
    rfl
  rw [operands, env.rollOperands_of_le (Int.natCast_nonneg n) (Int.natCast_nonneg s) h]
  rfl

/-- Evaluation of a formula does not fail and keeps to the span. -/
theorem evalWith_within (f : Formula) (h : f.Fits env.maxRollCount) :
    Eval.Ensures (fun _ => False) (Value.Within f.span) (f.toExpr.evalWith env call) := by
  induction f with
  | const k =>
    simp only [toExpr, Expr.evalWith]
    exact Eval.ensures_pure ⟨k, ⟨Int.le_refl k, Int.le_refl k⟩, .int k⟩
  | roll n s =>
    intro d
    rw [evalWith_roll h]
    exact ⟨_, Span.sum_mem_pool n s d, .pool _⟩
  | plus f g ihf ihg =>
    rw [toExpr]
    refine ensures_binary (by decide) (ihf h.1) (ihg h.2) fun v w m n hm hn hv hw => ?_
    rw [reduce, hv.given, hw.given]
    exact (hv.add hw).imp (fun _ => id) fun x hx => ⟨m + n, Span.add_mem hm hn, hx⟩
  | minus f g ihf ihg =>
    rw [toExpr]
    refine ensures_binary (by decide) (ihf h.1) (ihg h.2) fun v w m n hm hn hv hw => ?_
    rw [reduce, hv.given, hw.given]
    show Outcome.Ensures _ _ (v.sub w)
    rw [hv.sub hw]
    exact ⟨m - n, Span.sub_mem hm hn, .int _⟩
  | times f g ihf ihg =>
    rw [toExpr]
    refine ensures_binary (by decide) (ihf h.1) (ihg h.2) fun v w m n hm hn hv hw => ?_
    rw [reduce, hv.given, hw.given]
    show Outcome.Ensures _ _ (v.mul w)
    rw [hv.mul hw]
    exact ⟨m * n, Span.mul_mem hm hn, .int _⟩
  | pos f ih =>
    rw [toExpr]
    refine ensures_unary (by decide) (ih h) fun v n hn hv => ?_
    rw [reduce, hv.given]
    exact ⟨n, hn, hv⟩
  | neg f ih =>
    rw [toExpr]
    refine ensures_unary (by decide) (ih h) fun v n hn hv => ?_
    rw [reduce, hv.given]
    show Outcome.Ensures _ _ v.neg
    rw [hv.neg]
    exact ⟨-n, Span.neg_mem hn, .int _⟩

end Formula

/-- A formula whose pools are within the limit evaluates, whatever the dice show, to an integer or a
    list of integers, and the integer or the sum of the list is in the span of the formula. -/
theorem eval_mem_span (f : Formula) (env : Env) (h : f.Fits env.maxRollCount) (d : Dice) :
    ∃ v t, (f.toExpr.eval env d).outcome = .ok v ∧ v.Totals t ∧ t ∈ f.span := by
  have within : Outcome.Ensures _ _ (f.toExpr.evalWith env env.call d).outcome :=
    f.evalWith_within h d
  rw [← Expr.eval_eq] at within
  cases hv : (f.toExpr.eval env d).outcome with
  | error e =>
    rw [hv] at within
    exact within.elim
  | ok v =>
    rw [hv] at within
    obtain ⟨t, ht, htotal⟩ := within
    exact ⟨v, t, rfl, htotal, ht⟩

/-- Two dice with six sides and a modifier. -/
theorem two_dice_plus_three_span :
    let f : Formula := .plus (.roll 2 6) (.const 3)
    f.Fits Env.initial.maxRollCount ∧ f.span = ⟨5, 15, by decide⟩ ∧
      ∀ d, ∃ v t, (f.toExpr.eval Env.initial d).outcome = .ok v ∧ v.Totals t ∧ t ∈ f.span := by
  intro f
  have h : f.Fits Env.initial.maxRollCount := ⟨show (2 : Int) ≤ 100000 by decide, trivial⟩
  exact ⟨h, rfl, fun d => eval_mem_span f Env.initial h d⟩

end DiceNotation
