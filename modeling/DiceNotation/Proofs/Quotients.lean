import DiceNotation.Proofs.Rounding
import DiceNotation.Proofs.Span

/-!
Quotients of numbers.

Two integers are divided as integers if the divisor divides, and else their quotient is rounded, if
it is below the limit of the reals (`int_div_int`). All other numbers are divided as reals, and an
integer beyond the limit has none. That is noticed before the divisor is looked at, so that a zero
real is not reported as such under an integer of that size, though a zero integer is
(`div_zeroDivision_iff`, `reportsZeroDivisor_iff`).
-/

namespace DiceNotation

namespace Number

/-! ### Numbers as reals -/

/-- The number is a real, or an integer below the limit of the reals. -/
def Fits : Number → Prop
  | int n => n.natAbs < Binary64.limit
  | real _ => True

theorem toReal_int {n : Int} (h : n.natAbs < Binary64.limit) :
    (int n).toReal = .ok (Binary64.ofInt n) :=
  if_pos ((Binary64.ofInt_isFinite_iff n).mpr h)

theorem toReal_int_of_not {n : Int} (h : ¬n.natAbs < Binary64.limit) :
    (int n).toReal = .error .tooLarge :=
  if_neg fun hx => h ((Binary64.ofInt_isFinite_iff n).mp hx)

theorem ofInt_isZero {n : Int} (h : n.natAbs < Binary64.limit) :
    (Binary64.ofInt n).isZero = (n == 0) := by
  by_cases hn : n = 0
  · rw [hn]
    rfl
  · obtain ⟨x, hx, -, one, -⟩ := Binary64.exists_ofInt hn h
    rw [hx, beq_eq_false_iff_ne.mpr hn]
    exact one.isZero

/-- A number that fits has a real that is zero where it is. One that does not is an integer other
    than zero. -/
theorem toReal_cases (n : Number) :
    (n.Fits ∧ ∃ x, n.toReal = .ok x ∧ x.isZero = n.isZero) ∨
      ¬n.Fits ∧ n.toReal = .error .tooLarge ∧ n.isInt = true ∧ n.isZero = false := by
  cases n with
  | real x => exact .inl ⟨trivial, x, rfl, rfl⟩
  | int n =>
    by_cases h : n.natAbs < Binary64.limit
    · exact .inl ⟨h, _, toReal_int h, ofInt_isZero h⟩
    · refine .inr ⟨h, toReal_int_of_not h, rfl, beq_eq_false_iff_ne.mpr ?_⟩
      rintro rfl
      exact h (Nat.zero_lt_of_lt Binary64.one_lt_limit)

/-! ### Division by zero -/

theorem settle_ne_zeroDivision (x : Binary64) : settle x ≠ .error .zeroDivision := by
  unfold settle
  split <;> exact fun h => (nomatch h)

theorem divInt_zeroDivision_iff (a b : Int) : divInt a b = .error .zeroDivision ↔ b = 0 := by
  unfold divInt
  by_cases hb : b = 0
  · exact ⟨fun _ => hb, fun _ => if_pos hb⟩
  · rw [if_neg hb]
    refine ⟨fun h => ?_, fun h => absurd h hb⟩
    split at h
    · exact nomatch h
    · exact absurd h (settle_ne_zeroDivision _)

/-- Unless both are integers, numbers are divided as reals. -/
theorem div_inReals {m n : Number} (h : m.isInt = true → n.isInt = false) :
    m.div n = (do
      let x ← m.toReal
      let y ← n.toReal
      if y.isZero then .error .zeroDivision else settle (x.div y)) := by
  cases m with
  | real x => rfl
  | int m =>
    cases n with
    | real y => rfl
    | int n => exact nomatch h rfl

/-- A zero divisor is reported where it is an integer, or the dividend has a real. -/
theorem div_zeroDivision_iff (m n : Number) :
    m.div n = .error .zeroDivision ↔ n.isZero = true ∧ (n.isInt = true ∨ m.Fits) := by
  by_cases ints : m.isInt = true ∧ n.isInt = true
  · obtain ⟨hm, hn⟩ := ints
    cases m with
    | real x => cases hm
    | int a =>
      cases n with
      | real y => cases hn
      | int b =>
        refine (divInt_zeroDivision_iff a b).trans ?_
        exact ⟨fun hb => ⟨beq_iff_eq.mpr hb, .inl rfl⟩, fun h => beq_iff_eq.mp h.1⟩
  · rw [div_inReals fun hm => Bool.eq_false_iff.mpr fun hn => ints ⟨hm, hn⟩]
    rcases m.toReal_cases with ⟨hm, x, hx, -⟩ | ⟨hm, hx, left, -⟩
    · rcases n.toReal_cases with ⟨-, y, hy, zero⟩ | ⟨-, hy, -, zero⟩
      · rw [hx, hy, ← zero]
        show ite _ _ _ = _ ↔ _
        by_cases h : y.isZero = true
        · rw [if_pos h]
          exact ⟨fun _ => ⟨h, .inr hm⟩, fun _ => rfl⟩
        · rw [if_neg h]
          exact ⟨fun hs => absurd hs (settle_ne_zeroDivision _), fun hz => absurd hz.1 h⟩
      · rw [hx, hy, zero]
        exact ⟨fun h => (nomatch h), fun h => (nomatch h.1)⟩
    · rw [hx]
      refine ⟨fun h => (nomatch h), fun h => ?_⟩
      rcases h.2 with right | fits
      · exact absurd ⟨left, right⟩ ints
      · exact absurd fits hm

end Number

namespace Value

variable {v w : Value} {m n : Number}

theorem div_numbers (hv : v.operand .div = .ok (.number m)) (hw : w.operand .div = .ok (.number n)) :
    v.div w = (settleFor InfixOp.div (m.div n)).map number :=
  binary_numbers hv hw

theorem div_eq_divisionByZero_iff (hv : v.operand .div = .ok (.number m))
    (hw : w.operand .div = .ok (.number n)) :
    v.div w = fail (.divisionByZero InfixOp.div) ↔
      n.isZero = true ∧ (n.isInt = true ∨ m.Fits) := by
  rw [div_numbers hv hw, settleFor_divisionByZero_iff, Number.div_zeroDivision_iff]

/-- A quotient is reported as a division by zero exactly if the divisor is zero. -/
def ReportsZeroDivisor (v w : Value) (divisor : Number) : Prop :=
  v.div w = fail (.divisionByZero InfixOp.div) ↔ divisor.isZero = true

/-- When a quotient of operands that stand for numbers is reported as a division by zero exactly if
    the divisor is zero: if the divisor is not zero, or is the integer zero, or the dividend is a
    real or an integer below the limit of the reals. -/
theorem reportsZeroDivisor_iff (hv : v.operand .div = .ok (.number m))
    (hw : w.operand .div = .ok (.number n)) :
    v.ReportsZeroDivisor w n ↔ (n.isZero = true → n.isInt = true ∨ m.Fits) := by
  rw [ReportsZeroDivisor, div_eq_divisionByZero_iff hv hw]
  exact and_iff_left_iff_imp

/-- A pool of dice over a pool that adds up to the real zero. -/
theorem pool_over_zero_pool :
    let v : Value := .list [.int 1, .int 2]
    let w : Value := .list [.real (.zero true)]
    v.operand .div = .ok (.number (.int 3)) ∧ w.operand .div = .ok (.number (.real (.zero false))) ∧
      v.ReportsZeroDivisor w (.real (.zero false)) := by
  intro v w
  have hv : v.operand .div = .ok (.number (.int 3)) := (Totals.pool [1, 2]).operand .div
  have sum : Number.total [.real (.zero true)] = .ok (.real (.zero false)) := by decide +kernel
  have hw : w.operand .div = .ok (.number (.real (.zero false))) := by
    rw [show w = .list ([Number.real (.zero true)].map number) from rfl, operand_numbers, sum]
    rfl
  have fits : (3 : Int).natAbs < Binary64.limit := by decide +kernel
  exact ⟨hv, hw, (reportsZeroDivisor_iff hv hw).mpr fun _ => .inr fits⟩

/-- An integer beyond the limit has no real, and over the real zero only that is reported. -/
theorem zero_divisor_unreported :
    ¬(Value.int (2 ^ 1024)).ReportsZeroDivisor (.real (.zero false)) (.real (.zero false)) := by
  intro reports
  have large : ¬(2 ^ 1024 : Int).natAbs < Binary64.limit := by decide +kernel
  rcases ((div_eq_divisionByZero_iff rfl rfl).mp (reports.mpr rfl)).2 with right | fits
  · exact nomatch right
  · exact large fits

/-! ### Quotients of integers -/

variable {a b : Int}

theorem int_div_of_dvd (hb : b ≠ 0) (h : b ∣ a) : (int a).div (int b) = .ok (int (a / b)) := by
  have quotient : Number.div (.int a) (.int b) = .ok (.int (a / b)) := by
    rw [Number.div, Number.divInt, if_neg hb, if_pos (Int.emod_eq_zero_of_dvd h)]
  rw [div_numbers rfl rfl, quotient]
  rfl

/-- Below the limit of the reals there is a real for the quotient, and from the limit on none. -/
theorem int_div_of_not_dvd (hb : b ≠ 0) (h : ¬b ∣ a) :
    a.natAbs < Binary64.limit * b.natAbs ∧
        (∃ x, x.isFinite = true ∧ (int a).div (int b) = .ok (real x)) ∨
      Binary64.limit * b.natAbs ≤ a.natAbs ∧
        (int a).div (int b) = fail (.invalidOperation InfixOp.div tooLargeDetail) := by
  have quotient : ∃ s, Number.div (.int a) (.int b) =
      Number.settle (.roundRatio s a.natAbs b.natAbs) := by
    refine ⟨decide (a < 0) ^^ decide (b < 0), ?_⟩
    rw [Number.div, Number.divInt, if_neg hb, if_neg fun h0 => h (Int.dvd_of_emod_eq_zero h0)]
  obtain ⟨s, quotient⟩ := quotient
  have finite := Binary64.roundRatio_isFinite_iff s a.natAbs (Int.natAbs_pos.mpr hb)
  rw [div_numbers rfl rfl, quotient, Number.settle]
  generalize Binary64.roundRatio s a.natAbs b.natAbs = x at finite
  by_cases hx : x.isFinite = true
  · rw [if_pos hx]
    exact .inl ⟨finite.mp hx, x, hx, rfl⟩
  · rw [if_neg hx]
    exact .inr ⟨Nat.le_of_not_lt fun hlt => hx (finite.mpr hlt), rfl⟩

/-- Every integer other than zero has a reciprocal, which may be so small that it is rounded to
    zero. -/
theorem one_div_int (hb : b ≠ 0) : ∃ q, (int 1).div (int b) = .ok (.number q) := by
  by_cases h : b ∣ 1
  · exact ⟨_, int_div_of_dvd hb h⟩
  · rcases int_div_of_not_dvd hb h with ⟨-, x, -, hx⟩ | ⟨small, -⟩
    · exact ⟨_, hx⟩
    · have beyond := Nat.mul_le_mul Binary64.one_lt_limit (Int.natAbs_pos.mpr hb)
      omega

/-- A quotient of integers: a division by zero, the integer that it is, or the real that it is
    rounded to, if it is below the limit of the reals. -/
theorem int_div_int (a b : Int) :
    (b = 0 → (int a).div (int b) = fail (.divisionByZero InfixOp.div)) ∧
    (b ≠ 0 → b ∣ a → ∃ q, q * b = a ∧ (int a).div (int b) = .ok (int q)) ∧
    (b ≠ 0 → ((int a).mul (int b) >>= fun p => p.div (int b)) = .ok (int a)) ∧
    (b ≠ 0 → ¬b ∣ a →
      a.natAbs < Binary64.limit * b.natAbs ∧
        (∃ x, x.isFinite = true ∧ (int a).div (int b) = .ok (real x)) ∨
      Binary64.limit * b.natAbs ≤ a.natAbs ∧
        (int a).div (int b) = fail (.invalidOperation InfixOp.div "result is too large")) := by
  refine ⟨fun hb => ?_, fun hb h => ?_, fun hb => ?_, int_div_of_not_dvd⟩
  · refine (div_eq_divisionByZero_iff rfl rfl).mpr ⟨?_, .inl rfl⟩
    exact beq_iff_eq.mpr hb
  · exact ⟨a / b, Int.ediv_mul_cancel h, int_div_of_dvd hb h⟩
  · have exact := int_div_of_dvd hb (Int.dvd_mul_left a b)
    rw [Int.mul_ediv_cancel a hb] at exact
    exact exact

/-- Nothing over zero, a quotient beyond the limit that is an integer, one that is none, and one
    below the limit. -/
theorem quotients_of_each_kind :
    (int 5).div (int 0) = fail (.divisionByZero InfixOp.div) ∧
    (∃ q, q * -(10 ^ 40) = 10 ^ 400 ∧ (int (10 ^ 400)).div (int (-(10 ^ 40))) = .ok (int q)) ∧
    ((int (10 ^ 400)).mul (int 3) >>= fun p => p.div (int 3)) = .ok (int (10 ^ 400)) ∧
    (int (10 ^ 400)).div (int 3) =
      fail (.invalidOperation InfixOp.div "result is too large") ∧
    ∃ x, x.isFinite = true ∧ (int (-7)).div (int 2) = .ok (real x) := by
  refine ⟨(int_div_int 5 0).1 rfl, ?_, (int_div_int (10 ^ 400) 3).2.2.1 (by decide), ?_, ?_⟩
  · exact (int_div_int _ _).2.1 (by decide +kernel) (by decide +kernel)
  · rcases (int_div_int (10 ^ 400) 3).2.2.2 (by decide) (by decide +kernel) with h | h
    · exact absurd h.1 (by decide +kernel)
    · exact h.2
  · rcases (int_div_int (-7) 2).2.2.2 (by decide) (by decide) with h | h
    · exact h.2
    · exact absurd h.1 (by decide +kernel)

end Value

end DiceNotation
