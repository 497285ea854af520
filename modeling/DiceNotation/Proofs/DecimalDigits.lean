import DiceNotation.Proofs.Numerals
import DiceNotation.Proofs.Powers
import DiceNotation.Proofs.Rounding

/-!
How large integers are shown.

An integer of at most 3000 bits is shown digit by digit. A wider one is shown by its sign and by about
how many digits it has. This is one more than the integer part of its bits times the decimal logarithm
of two, where both the logarithm and the product are rounded.

The rounded logarithm is `log10Digits / 2 ^ 54`. It is not below the logarithm, and above it by less
than half of its last place: `2 ^ (2 ^ 54)` is at most ten to the power of `log10Digits`
(`two_pow_le_ten_pow`), and its square is at least ten to the power of `2 * log10Digits - 1`
(`ten_pow_le_two_pow`). Both are found by squaring `2 ^ 64` again and again and keeping twenty digits
of it, cut off on one side or the other. As the product is not rounded up by more than a quarter, the
estimate is never below the number of digits and at most one above (`digitEstimate_near`).
-/

namespace DiceNotation.Number

open Binary64 (roundRatio ofInt finite)
open Text (digitCount)

/-! ### Powers of two by their leading digits -/

/-- The leading digits of `2 ^ (64 * 2 ^ n)` and the power of ten that they count. At each square the
    digits after the twentieth are cut off, and `up` is added instead. -/
def leading (up : Nat) : Nat → Nat × Nat
  | 0 => (2 ^ 64, 0)
  | n + 1 =>
    let (h, q) := leading up n
    let cut := if 10 ^ 39 ≤ h * h then 20 else 19
    (h * h / 10 ^ cut + up, 2 * q + cut)

theorem square_pow (n : Nat) : 2 ^ (64 * 2 ^ (n + 1)) = 2 ^ (64 * 2 ^ n) * 2 ^ (64 * 2 ^ n) := by
  rw [← Nat.pow_add]
  congr 1
  omega

theorem shift_pow (h q cut : Nat) : h * 10 ^ (2 * q + cut) = h * 10 ^ cut * (10 ^ q * 10 ^ q) := by
  rw [← Nat.pow_add, Nat.mul_assoc, ← Nat.pow_add]
  congr 2
  omega

/-- Cutting digits off gives a lower bound. -/
theorem leading_zero_le (n : Nat) :
    (leading 0 n).1 * 10 ^ (leading 0 n).2 ≤ 2 ^ (64 * 2 ^ n) := by
  induction n with
  | zero => decide
  | succ n ih =>
    rw [square_pow]
    rcases hhq : leading 0 n with ⟨h, q⟩
    simp only [leading, hhq] at ih ⊢
    -- the bound holds however many digits are cut off
    generalize (if 10 ^ 39 ≤ h * h then 20 else 19) = cut
    calc (h * h / 10 ^ cut + 0) * 10 ^ (2 * q + cut)
        = h * h / 10 ^ cut * 10 ^ cut * (10 ^ q * 10 ^ q) := shift_pow ..
      _ ≤ h * h * (10 ^ q * 10 ^ q) := Nat.mul_le_mul_right _ (Nat.div_mul_le_self ..)
      _ = h * 10 ^ q * (h * 10 ^ q) := by ac_rfl
      _ ≤ 2 ^ (64 * 2 ^ n) * 2 ^ (64 * 2 ^ n) := Nat.mul_le_mul ih ih

/-- Adding one for the digits that are cut off gives an upper bound. -/
theorem le_leading_one (n : Nat) :
    2 ^ (64 * 2 ^ n) ≤ (leading 1 n).1 * 10 ^ (leading 1 n).2 := by
  induction n with
  | zero => decide
  | succ n ih =>
    rw [square_pow]
    rcases hhq : leading 1 n with ⟨h, q⟩
    simp only [leading, hhq] at ih ⊢
    generalize (if 10 ^ 39 ≤ h * h then 20 else 19) = cut
    have digits : h * h ≤ (h * h / 10 ^ cut + 1) * 10 ^ cut :=
      Nat.le_of_lt (Nat.lt_mul_of_div_lt (Nat.lt_succ_self _) (Nat.pow_pos (by decide)))
    calc 2 ^ (64 * 2 ^ n) * 2 ^ (64 * 2 ^ n) ≤ h * 10 ^ q * (h * 10 ^ q) := Nat.mul_le_mul ih ih
      _ = h * h * (10 ^ q * 10 ^ q) := by ac_rfl
      _ ≤ (h * h / 10 ^ cut + 1) * 10 ^ cut * (10 ^ q * 10 ^ q) := Nat.mul_le_mul_right _ digits
      _ = (h * h / 10 ^ cut + 1) * 10 ^ (2 * q + cut) := (shift_pow ..).symm

/-! ### The decimal logarithm of two -/

/-- The mantissa of the rounded logarithm. -/
def log10Digits : Nat := 0x134413509f79ff

theorem two_pow_le_of_leading {n i d : Nat} (few : (leading 1 n).1 ≤ 10 ^ i)
    (count : i + (leading 1 n).2 = d) : 2 ^ (64 * 2 ^ n) ≤ 10 ^ d := by
  calc 2 ^ (64 * 2 ^ n) ≤ (leading 1 n).1 * 10 ^ (leading 1 n).2 := le_leading_one n
    _ ≤ 10 ^ i * 10 ^ (leading 1 n).2 := Nat.mul_le_mul_right _ few
    _ = 10 ^ d := by rw [← Nat.pow_add, count]

theorem ten_pow_le_of_leading {n i d : Nat} (many : 10 ^ i ≤ (leading 0 n).1)
    (count : i + (leading 0 n).2 = d) : 10 ^ d ≤ 2 ^ (64 * 2 ^ n) := by
  calc 10 ^ d = 10 ^ i * 10 ^ (leading 0 n).2 := by rw [← Nat.pow_add, count]
    _ ≤ (leading 0 n).1 * 10 ^ (leading 0 n).2 := Nat.mul_le_mul_right _ many
    _ ≤ 2 ^ (64 * 2 ^ n) := leading_zero_le n

/-- The rounded logarithm is not below the logarithm. -/
theorem two_pow_le_ten_pow : 2 ^ (64 * 2 ^ 48) ≤ 10 ^ log10Digits :=
  have few : (leading 1 48).1 ≤ 10 ^ 20 := by decide +kernel
  have count : 20 + (leading 1 48).2 = log10Digits := by decide +kernel
  two_pow_le_of_leading few count

/-- Half a last place less would be below the logarithm. -/
theorem ten_pow_le_two_pow : 10 ^ (2 * log10Digits - 1) ≤ 2 ^ (64 * 2 ^ 49) :=
  have many : 10 ^ 19 ≤ (leading 0 49).1 := by decide +kernel
  have count : 19 + (leading 0 49).2 = 2 * log10Digits - 1 := by decide +kernel
  ten_pow_le_of_leading many count

/-- A bound on the logarithm bounds the powers of ten below a power of two. -/
theorem exponent_le_of_ten_pow_lt {b d j k : Nat} (hlog : 2 ^ k ≤ 10 ^ d) (h : 10 ^ j < 2 ^ b) :
    j * k ≤ b * d := by
  refine (Nat.pow_le_pow_iff_right (a := 10) (by decide)).mp ?_
  calc 10 ^ (j * k) = (10 ^ j) ^ k := Nat.pow_mul ..
    _ ≤ (2 ^ b) ^ k := Nat.pow_le_pow_left (Nat.le_of_lt h) k
    _ = (2 ^ k) ^ b := by rw [← Nat.pow_mul, ← Nat.pow_mul, Nat.mul_comm]
    _ ≤ (10 ^ d) ^ b := Nat.pow_le_pow_left hlog b
    _ = 10 ^ (b * d) := by rw [← Nat.pow_mul, Nat.mul_comm]

theorem exponent_lt_of_two_pow_lt {b d j k : Nat} (hk : k ≠ 0) (hlog : 10 ^ d ≤ 2 ^ k)
    (h : 2 ^ b < 10 ^ j) : b * d < j * k := by
  refine (Nat.pow_lt_pow_iff_right (a := 10) (by decide)).mp ?_
  calc 10 ^ (b * d) = (10 ^ d) ^ b := by rw [← Nat.pow_mul, Nat.mul_comm]
    _ ≤ (2 ^ k) ^ b := Nat.pow_le_pow_left hlog b
    _ = (2 ^ b) ^ k := by rw [← Nat.pow_mul, ← Nat.pow_mul, Nat.mul_comm]
    _ < (10 ^ j) ^ k := Nat.pow_lt_pow_left h hk
    _ = 10 ^ (j * k) := (Nat.pow_mul ..).symm

/-! ### Digits of a magnitude -/

theorem digitCount_le_iff {n k : Nat} (hk : 0 < k) : digitCount n ≤ k ↔ n < 10 ^ k :=
  Nat.length_toDigits_le_iff (by decide) hk

theorem lt_ten_pow_digitCount (n : Nat) : n < 10 ^ digitCount n :=
  (digitCount_le_iff Nat.length_toDigits_pos).mp (Nat.le_refl _)

theorem exists_digitCount {n : Nat} (hn : n ≠ 0) : ∃ j, digitCount n = j + 1 ∧ 10 ^ j ≤ n := by
  obtain ⟨j, hj⟩ : ∃ j, digitCount n = j + 1 := Nat.exists_eq_add_one.mpr Nat.length_toDigits_pos
  refine ⟨j, hj, ?_⟩
  cases j with
  | zero => exact Nat.pos_of_ne_zero hn
  | succ j =>
    have longer : ¬digitCount n ≤ j + 1 := by omega
    rw [digitCount_le_iff j.succ_pos] at longer
    exact Nat.le_of_not_lt longer

theorem lt_two_pow_bitLength (n : Nat) : n < 2 ^ bitLength n := by
  rw [bitLength_eq_size]
  exact n.lt_size_self

theorem two_pow_le_of_bitLength {n b : Nat} (h : bitLength n = b + 1) : 2 ^ b ≤ n := by
  have hb : b < n.size := by
    rw [← bitLength_eq_size, h]
    exact b.lt_succ_self
  exact Nat.lt_size.mp hb

/-! ### The estimate -/

theorem log10Two_value : ∃ y, log10Two = finite y ∧ y.negative = false ∧
    y.num.natAbs = log10Digits ∧ y.den = 2 ^ 54 :=
  ⟨_, rfl, rfl, by decide, by decide⟩

/-- The product of bits and logarithm is rounded once, as the bits are exact. -/
theorem mul_log10Two {bits : Nat} (hbits : 0 < bits) (h : bits < 2 ^ 53) :
    ∃ s, 0 < s ∧ (ofInt bits).mul log10Two =
      roundRatio false (bits * log10Digits * s) (2 ^ 54 * s) := by
  obtain ⟨x, hx, xpos, xnum⟩ := Binary64.ofInt_exact hbits h
  obtain ⟨y, hy, ypos, ynum, yden⟩ := log10Two_value
  refine ⟨x.den, x.den_pos, ?_⟩
  rw [hx, hy, Binary64.mul, xpos, ypos, xnum, ynum, yden, Nat.mul_right_comm, Nat.mul_comm x.den]
  rfl

/-- What the integer part of the rounded product reaches. -/
theorem exists_digitEstimate {bits : Nat} (hbits : 0 < bits) (h : bits < 2 ^ 53) :
    ∃ k : Nat, digitEstimate bits = k + 1 ∧
      ∀ t : Nat, (t * 2 ^ 54 ≤ bits * log10Digits → t ≤ k) ∧
        (t ≤ k → 4 * (t * 2 ^ 54) ≤ 4 * (bits * log10Digits) + 2 ^ 54) := by
  obtain ⟨s, hs, product⟩ := mul_log10Two hbits h
  have small : bits * log10Digits < 2 ^ 52 * 2 ^ 54 := by
    unfold log10Digits
    omega
  have hnum : 0 < bits * log10Digits * s := Nat.mul_pos (Nat.mul_pos hbits (by decide)) hs
  have hlt : bits * log10Digits * s < 2 ^ 52 * (2 ^ 54 * s) := by
    rw [← Nat.mul_assoc]
    exact Nat.mul_lt_mul_of_pos_right small hs
  obtain ⟨x, k, hx, hk, reached⟩ :=
    Binary64.truncate_roundRatio hnum (Nat.mul_pos (by decide) hs) hlt
  refine ⟨k, ?_, fun t => ⟨fun below => ?_, fun ht => ?_⟩⟩
  · rw [digitEstimate, product, hx]
    exact congrArg (· + 1) hk
  · refine (reached t).1 ?_
    rw [← Nat.mul_assoc]
    exact Nat.mul_le_mul_right s below
  · refine Nat.le_of_mul_le_mul_right (c := s) ?_ hs
    calc 4 * (t * 2 ^ 54) * s = 4 * (t * (2 ^ 54 * s)) := by ac_rfl
      _ ≤ 4 * (bits * log10Digits * s) + 2 ^ 54 * s := (reached t).2 ht
      _ = (4 * (bits * log10Digits) + 2 ^ 54) * s := by rw [Nat.add_mul, Nat.mul_assoc 4]

/-- The estimate is the number of digits or one more. -/
theorem digitEstimate_near {n : Nat} (hn : n ≠ 0) (h : bitLength n < 2 ^ 53) :
    ∃ d : Nat, digitEstimate (bitLength n) = d ∧ digitCount n ≤ d ∧ d ≤ digitCount n + 1 := by
  obtain ⟨b, hb⟩ : ∃ b, bitLength n = b + 1 := by
    rw [bitLength, if_neg hn]
    exact ⟨_, rfl⟩
  obtain ⟨j, hj, lower⟩ := exists_digitCount hn
  obtain ⟨k, hk, reached⟩ := exists_digitEstimate (show 0 < bitLength n by omega) h
  have upperBits : 10 ^ j < 2 ^ bitLength n := Nat.lt_of_le_of_lt lower (lt_two_pow_bitLength n)
  have lowerBits : 2 ^ b < 10 ^ digitCount n :=
    Nat.lt_of_le_of_lt (two_pow_le_of_bitLength hb) (lt_ten_pow_digitCount n)
  have atLeast := exponent_le_of_ten_pow_lt two_pow_le_ten_pow upperBits
  have atMost := exponent_lt_of_two_pow_lt (by decide) ten_pow_le_two_pow lowerBits
  refine ⟨k + 1, hk, ?_, ?_⟩
  · rw [hj]
    exact Nat.succ_le_succ ((reached j).1 atLeast)
  · -- one more would be above the product by more than rounding can add
    refine Nat.succ_le_succ (Nat.le_of_not_lt fun more => ?_)
    have missed := (reached (digitCount n + 1)).2 more
    rw [hb] at h missed
    unfold log10Digits at *
    omega

/-! ### Shown integers -/

/-- An integer of at most 3000 bits is shown by its numeral, which is read as the integer again and has at
    most 904 digits and a sign. A wider one is shown by its sign and by a number of digits that is the
    one it has or one more. -/
theorem integers_shown (n : Int) :
    (bitLength n.natAbs ≤ 3000 →
      (int n).text = toString n ∧ Text.readInt? (int n).text = some n ∧ (int n).text.length ≤ 905) ∧
    (3000 < bitLength n.natAbs → bitLength n.natAbs < 2 ^ 53 →
      ∃ d : Nat, (int n).text =
          (if n < 0 then "-" else "") ++ "<integer of about " ++ toString d ++ " digits>" ∧
        digitCount n.natAbs ≤ d ∧ d ≤ digitCount n.natAbs + 1) := by
  constructor
  · intro narrow
    have numeral : (int n).text = toString n := if_neg (Nat.not_lt.mpr narrow)
    have digits : digitCount n.natAbs ≤ 904 := by
      refine (digitCount_le_iff (by decide)).mpr ?_
      calc n.natAbs < 2 ^ bitLength n.natAbs := lt_two_pow_bitLength n.natAbs
        _ ≤ 2 ^ 3000 := Nat.pow_le_pow_right Nat.two_pos narrow
        _ ≤ 10 ^ 904 := by decide +kernel
    rw [numeral]
    refine ⟨rfl, Text.readInt?_toString (Nat.le_trans digits (by decide)), ?_⟩
    exact Nat.le_trans (Text.length_toString_le n) (Nat.succ_le_succ digits)
  · intro wide bounded
    have nonzero : n.natAbs ≠ 0 := by
      intro zero
      rw [zero] at wide
      exact absurd wide (by decide)
    obtain ⟨d, hd, near⟩ := digitEstimate_near nonzero bounded
    refine ⟨d, ?_, near⟩
    show intText n = _
    have summary : intText n = _ := if_pos wide
    rw [summary, hd]
    rfl

/-- The greatest integer that is shown digit by digit, and a power of two whose 904 digits are
    taken for 905. -/
theorem numeral_and_summary_shown :
    let m : Int := 2 ^ 3000 - 1
    let n : Int := -2 ^ 3003
    bitLength m.natAbs ≤ 3000 ∧ Text.readInt? (int m).text = some m ∧ (int m).text.length ≤ 905 ∧
      3000 < bitLength n.natAbs ∧ bitLength n.natAbs < 2 ^ 53 ∧
      (int n).text = "-<integer of about 905 digits>" ∧ digitCount n.natAbs = 904 ∧
      ∃ d : Nat, (int n).text =
          (if n < 0 then "-" else "") ++ "<integer of about " ++ toString d ++ " digits>" ∧
        digitCount n.natAbs ≤ d ∧ d ≤ digitCount n.natAbs + 1 := by
  intro m n
  have narrow : bitLength m.natAbs ≤ 3000 := by decide +kernel
  have wide : 3000 < bitLength n.natAbs := by decide +kernel
  have bounded : bitLength n.natAbs < 2 ^ 53 := by decide +kernel
  have shown := (integers_shown m).1 narrow
  refine ⟨narrow, shown.2.1, shown.2.2, wide, bounded, ?_, ?_, (integers_shown n).2 wide bounded⟩
  · decide +kernel
  · decide +kernel

end DiceNotation.Number
