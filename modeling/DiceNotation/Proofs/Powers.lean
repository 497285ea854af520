import Mathlib.Algebra.Ring.Int.Parity
import Mathlib.Data.Nat.Size
import DiceNotation.Proofs.Span

/-!
The width of integer powers.

Before an integer power is computed, its width is estimated from that of the base: a base of `k + 1`
bits to the power `e` has more than `k * e` bits (`lt_size_pow`) and no more than `(k + 1) * e`
(`size_pow_le`). It is refused if `k * e` is beyond the limit of `2 ^ 20`. So every power that is
refused has more bits than the limit, and every one that is computed has at most twice as many
(`power_exact_or_refused`). Between the two are powers that have more bits than the limit and are
computed all the same (`powerBounded_iff`), among them one of three (`power_of_three_unbounded`).
-/

namespace DiceNotation

/-! ### Bits of a power -/

namespace Number

theorem bitLength_eq_size (n : Nat) : bitLength n = n.size := by
  unfold bitLength
  split
  case isTrue h => rw [h, Nat.size_zero]
  case isFalse h =>
    exact Nat.le_antisymm (Nat.lt_size.mpr (Nat.log2_self_le h)) (Nat.size_le.mpr Nat.lt_log2_self)

theorem bitLength_sub_one (n : Nat) : bitLength n - 1 = n.log2 := by
  unfold bitLength
  split
  case isTrue h => rw [h]; decide
  case isFalse h => exact Nat.add_sub_cancel n.log2 1

theorem lt_size_pow {b : Nat} (hb : b ≠ 0) (e : Nat) : b.log2 * e < (b ^ e).size := by
  refine Nat.lt_size.mpr ?_
  calc 2 ^ (b.log2 * e) = (2 ^ b.log2) ^ e := pow_mul 2 b.log2 e
    _ ≤ b ^ e := Nat.pow_le_pow_left (Nat.log2_self_le hb) e

theorem size_pow_le (b : Nat) {e : Nat} (he : e ≠ 0) : (b ^ e).size ≤ (b.log2 + 1) * e := by
  refine Nat.size_le.mpr ?_
  calc b ^ e < (2 ^ (b.log2 + 1)) ^ e := Nat.pow_lt_pow_left Nat.lt_log2_self he
    _ = 2 ^ ((b.log2 + 1) * e) := (pow_mul 2 (b.log2 + 1) e).symm

theorem log2_eq_zero_of_le_one {b : Nat} (hb : b ≤ 1) : b.log2 = 0 := by
  rcases Nat.le_one_iff_eq_zero_or_eq_one.mp hb with rfl | rfl <;> decide

/-- A power has at most twice the bits that are counted for it: a base that can grow has at least
    two bits, and all of them but one are counted. -/
theorem size_pow_le_double {b e limit : Nat} (hlimit : 0 < limit) (h : b.log2 * e ≤ limit) :
    (b ^ e).size ≤ 2 * limit := by
  by_cases hb : b ≤ 1
  · have one : (b ^ e).size ≤ 1 := by
      refine Nat.size_le.mpr (Nat.lt_succ_of_le ?_)
      calc b ^ e ≤ 1 ^ e := Nat.pow_le_pow_left hb e
        _ = 1 := Nat.one_pow e
    omega
  · rcases Nat.eq_zero_or_pos e with rfl | he
    · rw [Nat.pow_zero, Nat.size_one]
      omega
    · have bits : 1 ≤ b.log2 := (Nat.le_log2 (by omega)).mpr (by omega)
      have bound := size_pow_le b (Nat.ne_of_gt he)
      have counted : 1 * e ≤ b.log2 * e := Nat.mul_le_mul_right e bits
      rw [Nat.add_mul] at bound
      omega

/-! ### The rule for powers -/

theorem pow_of_natAbs_le_one {b : Int} (hb : b.natAbs ≤ 1) {e : Nat} (he : e ≠ 0) :
    b ^ e = if e % 2 = 0 then (b.natAbs : Int) else b := by
  obtain rfl | rfl | rfl : b = 0 ∨ b = 1 ∨ b = -1 := by omega
  · rw [zero_pow he]
    split <;> rfl
  · rw [one_pow]
    split <;> rfl
  · rw [neg_one_pow_eq_ite]
    simp only [Nat.even_iff]
    rfl

/-- The estimate alone decides, for it is zero where the power cannot grow. -/
theorem powNat_eq (b : Int) (e : Nat) : powNat b e =
    if 2 ^ 20 < b.natAbs.log2 * e then .error .tooLarge else .ok (int (b ^ e)) := by
  unfold powNat
  by_cases he : e = 0
  · rw [if_pos he, he, Nat.mul_zero, if_neg (Nat.not_lt_zero _), pow_zero]
  rw [if_neg he]
  by_cases hb : b.natAbs ≤ 1
  · rw [if_pos hb, log2_eq_zero_of_le_one hb, Nat.zero_mul, if_neg (Nat.not_lt_zero _),
      pow_of_natAbs_le_one hb he]
  · rw [if_neg hb]
    rfl

end Number

namespace Value

open Number

/-- Operands that stand for integers, the exponent for a natural one, are raised to a power as the
    integers are, whatever the power function of reals is. -/
theorem Totals.powWith (general : Binary64.PowerFunction) {v w : Value} {b : Int} {e : Nat}
    (hv : v.Totals b) (hw : w.Totals e) :
    v.powWith general w = if 2 ^ 20 < b.natAbs.log2 * e then
      fail (.invalidOperation InfixOp.pow "result is too large") else .ok (.int (b ^ e)) := by
  have rule : v.powWith general w = (settleFor InfixOp.pow (powNat b e)).map number :=
    binary_numbers (hv.operand .pow) (hw.operand .pow)
  rw [rule, powNat_eq]
  split <;> rfl

theorem Totals.pow {v w : Value} {b : Int} {e : Nat} (hv : v.Totals b) (hw : w.Totals e) :
    v.pow w = if 2 ^ 20 < b.natAbs.log2 * e then
      fail (.invalidOperation InfixOp.pow "result is too large") else .ok (.int (b ^ e)) :=
  hv.powWith Binary64.systemPower hw

/-- The power keeps to the limit: an integer that comes of it has at most `2 ^ 20` bits, and if
    `b ^ e` has more, then it is refused. -/
def PowerBounded (v w : Value) (b : Int) (e : Nat) : Prop :=
  (∀ n : Int, v.pow w = .ok (.int n) → bitLength n.natAbs ≤ 2 ^ 20) ∧
    (2 ^ 20 < bitLength (b ^ e).natAbs →
      v.pow w = fail (.invalidOperation InfixOp.pow "result is too large"))

/-- When the power of operands that stand for integers keeps to the limit: if `b ^ e` has no more
    bits than that, and else if it is refused, because already the bits of `b` but one, taken `e`
    times, are more. -/
theorem powerBounded_iff {v w : Value} {b : Int} {e : Nat} (hv : v.Totals b) (hw : w.Totals e) :
    v.PowerBounded w b e ↔
      bitLength (b.natAbs ^ e) ≤ 2 ^ 20 ∨ 2 ^ 20 < (bitLength b.natAbs - 1) * e := by
  rw [PowerBounded, hv.pow hw, bitLength_sub_one, Int.natAbs_pow]
  by_cases h : 2 ^ 20 < b.natAbs.log2 * e
  · rw [if_pos h]
    exact ⟨fun _ => .inr h, fun _ => ⟨fun n hn => (nomatch hn), fun _ => rfl⟩⟩
  · rw [if_neg h]
    refine ⟨fun bounded => ?_, fun hle => ?_⟩
    · rw [← Int.natAbs_pow]
      exact .inl (bounded.1 _ rfl)
    · have bits := hle.resolve_right h
      refine ⟨fun n hn => ?_, fun hlt => absurd bits (Nat.not_le.mpr hlt)⟩
      cases hn
      rw [Int.natAbs_pow]
      exact bits

/-- A pool that stands for three and has the tenth power, one of sixteen bits. -/
theorem pool_powerBounded :
    let v : Value := .list [.int 1, .int 2]
    v.pow (.int 10) = .ok (.int 59049) ∧ v.PowerBounded (.int 10) 3 10 := by
  intro v
  have hv : v.Totals 3 := .pool [1, 2]
  exact ⟨rfl, (powerBounded_iff hv (.int 10)).mpr (.inl (by decide))⟩

/-- The limit is not kept to by three to the power `2 ^ 20`. It is taken to have one bit for each
    factor, and has more than half as many again. -/
theorem power_of_three_unbounded : ¬(Value.int 3).PowerBounded (.int (2 ^ 20)) 3 (2 ^ 20) := by
  intro bounded
  have magnitude : (3 : Int).natAbs = 3 := rfl
  have one : Nat.log2 3 = 1 := by decide
  have computed := (Totals.int 3).pow (Totals.int (2 ^ 20 : Nat))
  rw [magnitude, one, Nat.one_mul, if_neg (Nat.lt_irrefl _)] at computed
  have limit := bounded.1 _ computed
  rw [Int.natAbs_pow, magnitude, bitLength_eq_size] at limit
  have wide := lt_size_pow (b := 3) (by decide) (2 ^ 20)
  rw [one, Nat.one_mul] at wide
  exact Nat.not_le.mpr wide limit

/-- An integer to a natural power is exact, with at most `2 ^ 21` bits, or it is refused, and then
    it would have more than `2 ^ 20`. Zero, one and minus one have every power. -/
theorem power_exact_or_refused (b : Int) (e : Nat) :
    ((Value.int b).pow (.int e) = .ok (.int (b ^ e)) ∧ bitLength (b ^ e).natAbs ≤ 2 ^ 21 ∨
      (Value.int b).pow (.int e) = fail (.invalidOperation InfixOp.pow "result is too large") ∧
        2 ^ 20 < bitLength (b.natAbs ^ e)) ∧
      (b.natAbs ≤ 1 → (Value.int b).pow (.int e) = .ok (.int (b ^ e))) := by
  have rule := (Totals.int b).pow (Totals.int e)
  rw [Int.natAbs_pow, bitLength_eq_size]
  refine ⟨?_, fun hb => ?_⟩
  · by_cases h : 2 ^ 20 < b.natAbs.log2 * e
    · rw [if_pos h] at rule
      refine .inr ⟨rule, Nat.lt_trans h (lt_size_pow ?_ e)⟩
      intro hb
      rw [hb, log2_eq_zero_of_le_one (Nat.zero_le 1), Nat.zero_mul] at h
      exact Nat.not_lt_zero _ h
    · rw [if_neg h] at rule
      exact .inl ⟨rule, size_pow_le_double (by decide) (Nat.le_of_not_lt h)⟩
  · rw [rule, log2_eq_zero_of_le_one hb, Nat.zero_mul, if_neg (Nat.not_lt_zero _)]

/-- Zero to the power zero, and an exponent that no other base could have. -/
theorem unit_powers :
    (Value.int 0).pow (.int 0) = .ok (.int 1) ∧
      (Value.int (-1)).pow (.int (10 ^ 30 + 1 : Nat)) = .ok (.int (-1)) := by
  refine ⟨(power_exact_or_refused 0 0).2 (by decide), ?_⟩
  rw [(power_exact_or_refused (-1) (10 ^ 30 + 1)).2 (by decide)]
  have odd : Odd (10 ^ 30 + 1) := ⟨5 * 10 ^ 29, rfl⟩
  rw [odd.neg_one_pow]

end Value

end DiceNotation
