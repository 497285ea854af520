import Mathlib.Algebra.Order.Field.Power
import Mathlib.Algebra.Order.Ring.Rat
import Mathlib.Order.WithBot
import DiceNotation.Number

/-!
The order of exact values.

An integer is its own value, a finite real the rational number that its sign, mantissa and exponent
spell out, and the infinities are the two ends of the line (`Number.value`). Numbers are compared by
cross products of levels, without rounding, and this is the order of their values
(`Number.lt_iff`): an integer and a real, or two integers beyond the range of reals, stand to each other
as the numbers that they are.
-/

namespace DiceNotation

/-! ### Values -/

/-- The rational number that a finite real is. -/
def Binary64.Finite.value (x : Finite) : ℚ :=
  (if x.negative then -1 else 1) * (x.mantissa * 2 ^ x.exponent)

/-- The value of a number on the extended line. NaN stands nowhere on it; it is put at the lower end,
    so that there is a value in any case. -/
def Number.value : Number → WithBot (WithTop ℚ)
  | int n => ((n : ℚ) : WithTop ℚ)
  | real (.finite x) => (x.value : WithTop ℚ)
  | real (.infinite false) => ⊤
  | real (.infinite true) => ⊥
  | real .nan => ⊥

/-- The point of the extended line that a level is. -/
def Level.value : Level → WithBot (WithTop ℚ)
  | below => ⊥
  | ratio num den => ((num / den : ℚ) : WithTop ℚ)
  | above => ⊤

/-- A ratio has a denominator other than zero. -/
def Level.Proper : Level → Prop
  | ratio _ den => 0 < den
  | _ => True

/-! ### Comparison -/

/-- Cross products compare ratios. -/
theorem Level.lt_iff {l m : Level} (hl : l.Proper) (hm : m.Proper) :
    l.lt m = true ↔ l.value < m.value := by
  cases l with
  | below => cases m <;> simp [lt, value]
  | above => cases m <;> simp [lt, value]
  | ratio a b =>
    cases m with
    | below => simp [lt, value]
    | above => simpa [lt, value] using WithBot.coe_lt_coe.mpr (WithTop.coe_lt_top (a / b : ℚ))
    | ratio c d =>
      have hb : (0 : ℚ) < b := by exact_mod_cast hl
      have hd : (0 : ℚ) < d := by exact_mod_cast hm
      simp only [lt, value, decide_eq_true_eq, WithBot.coe_lt_coe, WithTop.coe_lt_coe]
      rw [div_lt_div_iff₀ hb hd]
      exact_mod_cast Iff.rfl

/-- The ratio of a finite real is its value. -/
theorem Binary64.Finite.num_div_den (x : Finite) : (x.num : ℚ) / x.den = x.value := by
  have magnitude : ((x.mantissa * powNum 2 x.exponent : Nat) : ℚ) / x.den =
      x.mantissa * 2 ^ x.exponent := by
    obtain ⟨k, hk | hk⟩ := Int.eq_nat_or_neg x.exponent
    · simp [den, powNum, powDen, hk]
    · simp [den, powNum, powDen, hk, div_eq_mul_inv]
  unfold num value
  cases x.negative <;> simp [← magnitude, neg_div]

/-- Every number but NaN has a level, which is its value. -/
theorem Number.exists_level {n : Number} (h : n ≠ .real .nan) :
    ∃ l, n.level? = some l ∧ l.Proper ∧ l.value = n.value := by
  cases n with
  | int n => exact ⟨_, rfl, Nat.one_pos, by simp [Level.value, Level.ofInt, value]⟩
  | real x =>
    cases x with
    | nan => exact absurd rfl h
    | infinite negative => cases negative <;> exact ⟨_, rfl, trivial, rfl⟩
    | finite x => exact ⟨_, rfl, x.den_pos, by simp [Level.value, value, x.num_div_den]⟩

/-- Numbers other than NaN are compared by their exact values. -/
theorem Number.lt_iff {m n : Number} (hm : m ≠ .real .nan) (hn : n ≠ .real .nan) :
    m.lt n = true ↔ m.value < n.value := by
  obtain ⟨l, hl, lproper, lvalue⟩ := exists_level hm
  obtain ⟨k, hk, kproper, kvalue⟩ := exists_level hn
  rw [← lvalue, ← kvalue, ← Level.lt_iff lproper kproper, lt, hl, hk]

end DiceNotation
