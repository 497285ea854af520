import Mathlib.Algebra.Order.Ring.Nat
import DiceNotation.Binary64.Basic

/-!
Where a ratio is rounded to.

A positive ratio lies between two powers of two, those of its binade and of the next
(`reaches_binade`, `not_reaches_binade`). Written at the target exponent it is therefore below
`2 ^ 53`, and not below `2 ^ 52` unless the exponent is the least one; rounding keeps to these
bounds, and so the parts that come of it are canonical unless their exponent is too great
(`exists_parts`). That is so from the middle between the greatest number and the next power of two
on, where the tie goes upward (`roundRatio_isFinite_iff`).

Below `2 ^ 52` a ratio is rounded to a multiple of a half or of less. So rounding adds at most a quarter to
it, and its integer part reaches what the ratio reaches (`truncate_roundRatio`).
-/

namespace DiceNotation.Binary64

/-- The least magnitude that is rounded beyond the range: half a unit above the greatest number. -/
def limit : Nat := 2 ^ 1024 - 2 ^ 970

theorem one_lt_limit : 1 < limit := by decide +kernel

/-! ### The nearest natural number -/

/-- A natural number is below the rounded quotient if the quotient is beyond the middle between it
    and the next one, or is the middle and the next one is even. -/
theorem lt_roundQuotient_iff (num : Nat) {den : Nat} (hden : 0 < den) (t : Nat) :
    t < roundQuotient num den ↔
      (2 * t + 1) * den < 2 * num ∨ (2 * t + 1) * den = 2 * num ∧ t % 2 = 1 := by
  have parts : den * (num / den) + num % den = num := Nat.div_add_mod num den
  have rest : num % den < den := Nat.mod_lt num hden
  unfold roundQuotient
  generalize num / den = q at parts
  generalize num % den = r at parts rest
  rw [Nat.mul_comm den q] at parts
  rw [Nat.add_mul, Nat.one_mul, Nat.mul_assoc]
  have below : t < q → t * den + den ≤ q * den := fun h => by
    rw [← Nat.succ_mul]
    exact Nat.mul_le_mul_right den h
  have above : q < t → q * den + den ≤ t * den := fun h => by
    rw [← Nat.succ_mul]
    exact Nat.mul_le_mul_right den h
  have equal : t = q → t * den = q * den := fun h => by rw [h]
  dsimp only
  split <;> omega

theorem le_roundQuotient {num den t : Nat} (hden : 0 < den) (h : t * den ≤ num) :
    t ≤ roundQuotient num den := by
  cases t with
  | zero => exact Nat.zero_le _
  | succ t =>
    refine (lt_roundQuotient_iff num hden t).mpr (.inl ?_)
    rw [Nat.succ_mul] at h
    rw [Nat.add_mul, Nat.mul_assoc]
    omega

theorem roundQuotient_le {num den t : Nat} (hden : 0 < den) (h : num ≤ t * den) :
    roundQuotient num den ≤ t := by
  refine Nat.le_of_not_lt fun hlt => ?_
  have middle := (lt_roundQuotient_iff num hden t).mp hlt
  rw [Nat.add_mul, Nat.mul_assoc] at middle
  omega

theorem roundQuotient_one (num : Nat) : roundQuotient num 1 = num :=
  Nat.le_antisymm (roundQuotient_le Nat.one_pos (Nat.le_of_eq (Nat.mul_one num).symm))
    (le_roundQuotient Nat.one_pos (Nat.le_of_eq (Nat.mul_one num)))

/-! ### Powers of two below a ratio -/

/-- The ratio is at least `2 ^ k`. -/
def Reaches (num den : Nat) (k : Int) : Prop := den * powNum 2 k ≤ num * powDen 2 k

theorem powNum_two (k : Int) : powNum 2 k = 2 ^ k.toNat := rfl

theorem powDen_two (k : Int) : powDen 2 k = 2 ^ (-k).toNat := rfl

theorem powNum_pos (k : Int) : 0 < powNum 2 k := Nat.two_pow_pos _

theorem powDen_pos (k : Int) : 0 < powDen 2 k := Nat.two_pow_pos _

/-- `2 ^ (e + j)` is `2 ^ j` times `2 ^ e`. -/
theorem powNum_add (e : Int) (j : Nat) :
    powNum 2 (e + j) * powDen 2 e = 2 ^ j * powNum 2 e * powDen 2 (e + j) := by
  simp only [powNum_two, powDen_two, ← Nat.pow_add]
  congr 1
  omega

variable {num den : Nat}

/-- The same at another exponent: the ratio written as a multiple of `2 ^ e`. -/
theorem reaches_add (e : Int) (j : Nat) :
    Reaches num den (e + j) ↔ 2 ^ j * (den * powNum 2 e) ≤ num * powDen 2 e := by
  have left : den * powNum 2 (e + j) * powDen 2 e =
      2 ^ j * (den * powNum 2 e) * powDen 2 (e + j) := by
    rw [Nat.mul_assoc, powNum_add]
    ac_rfl
  have right : num * powDen 2 (e + j) * powDen 2 e = num * powDen 2 e * powDen 2 (e + j) := by
    ac_rfl
  calc Reaches num den (e + j)
      ↔ den * powNum 2 (e + j) * powDen 2 e ≤ num * powDen 2 (e + j) * powDen 2 e :=
        (Nat.mul_le_mul_right_iff (powDen_pos e)).symm
    _ ↔ 2 ^ j * (den * powNum 2 e) * powDen 2 (e + j) ≤ num * powDen 2 e * powDen 2 (e + j) := by
        rw [left, right]
    _ ↔ 2 ^ j * (den * powNum 2 e) ≤ num * powDen 2 e :=
        Nat.mul_le_mul_right_iff (powDen_pos (e + j))

theorem Reaches.mono {k l : Int} (h : Reaches num den l) (hkl : k ≤ l) : Reaches num den k := by
  obtain ⟨j, rfl⟩ := Int.le.dest hkl
  exact Nat.le_trans (Nat.le_mul_of_pos_left _ (Nat.two_pow_pos j)) ((reaches_add k j).mp h)

theorem reaches_natCast (k : Nat) : Reaches num den k ↔ 2 ^ k * den ≤ num := by
  rw [Reaches, powNum_two, powDen_two, Int.toNat_natCast, Int.toNat_neg_natCast, Nat.pow_zero,
    Nat.mul_one, Nat.mul_comm]

/-- A ratio is at least the power of two of the bits that its numerator has more than its
    denominator, or of one bit less, and below that of one bit more. -/
theorem reaches_log2 (hnum : 0 < num) (hden : 0 < den) :
    Reaches num den (num.log2 - den.log2 - 1) ∧ ¬Reaches num den (num.log2 - den.log2 + 1) := by
  have numLower : 2 ^ num.log2 ≤ num := Nat.log2_self_le (Nat.ne_of_gt hnum)
  have denLower : 2 ^ den.log2 ≤ den := Nat.log2_self_le (Nat.ne_of_gt hden)
  have numUpper : num < 2 ^ (num.log2 + 1) := Nat.lt_log2_self
  have denUpper : den < 2 ^ (den.log2 + 1) := Nat.lt_log2_self
  constructor
  · have shift : (num.log2 - den.log2 - 1 : Int) = -(den.log2 + 1 : Nat) + num.log2 := by
      push_cast
      omega
    rw [shift, reaches_add, powNum_two, powDen_two, Int.neg_neg, Int.toNat_natCast,
      Int.toNat_neg_natCast, Nat.pow_zero, Nat.mul_one]
    exact Nat.mul_le_mul numLower (Nat.le_of_lt denUpper)
  · have shift : (num.log2 - den.log2 + 1 : Int) = -(den.log2 : Nat) + (num.log2 + 1 : Nat) := by
      push_cast
      omega
    rw [shift, reaches_add, powNum_two, powDen_two, Int.neg_neg, Int.toNat_natCast,
      Int.toNat_neg_natCast, Nat.pow_zero, Nat.mul_one, Nat.not_le]
    exact Nat.mul_lt_mul_of_lt_of_le numUpper denLower hden

theorem reaches_binade (hnum : 0 < num) (hden : 0 < den) : Reaches num den (binade num den) := by
  unfold binade
  dsimp only
  split
  case isTrue h => exact h
  case isFalse => exact (reaches_log2 hnum hden).1

theorem not_reaches_binade (hnum : 0 < num) (hden : 0 < den) :
    ¬Reaches num den (binade num den + 1) := by
  unfold binade
  dsimp only
  split
  case isTrue => exact (reaches_log2 hnum hden).2
  case isFalse h =>
    rw [Int.sub_add_cancel]
    exact h

/-! ### The parts of a rounded ratio -/

theorem limit_eq : limit = (2 ^ 54 - 1) * 2 ^ 970 := by
  rw [limit, Nat.sub_mul, Nat.one_mul, ← Nat.pow_add]

theorem scaled_lt (hnum : 0 < num) (hden : 0 < den) :
    num * powDen 2 (targetExponent num den) <
      2 ^ 53 * (den * powNum 2 (targetExponent num den)) := by
  refine Nat.lt_of_not_le fun h => not_reaches_binade hnum hden ?_
  refine ((reaches_add _ 53).mpr h).mono ?_
  unfold targetExponent
  omega

theorem le_scaled (hnum : 0 < num) (hden : 0 < den) (h : targetExponent num den ≠ -1074) :
    2 ^ 52 * (den * powNum 2 (targetExponent num den)) ≤
      num * powDen 2 (targetExponent num den) := by
  have exponent : targetExponent num den + (52 : Nat) = binade num den := by
    unfold targetExponent at h ⊢
    omega
  rw [← reaches_add, exponent]
  exact reaches_binade hnum hden

/-- Below the limit the target exponent is at most the greatest one, and at the greatest one the
    mantissa is not rounded up to the next power of two. -/
theorem lt_limit_iff (hnum : 0 < num) (hden : 0 < den) :
    let e := targetExponent num den
    num < limit * den ↔ e < 971 ∨
      e = 971 ∧ roundQuotient (num * powDen 2 e) (den * powNum 2 e) < 2 ^ 53 := by
  intro e
  obtain ⟨u, bound, scaled⟩ : ∃ u, limit * den = (2 ^ 54 - 1) * u ∧
      ∀ k, 2 ^ (k + 970) * den = 2 ^ k * u := by
    refine ⟨2 ^ 970 * den, ?_, fun k => ?_⟩
    · rw [limit_eq, mul_assoc]
    · rw [pow_add, mul_assoc]
  rcases Int.lt_trichotomy e 971 with small | heq | great
  · have below : ¬Reaches num den (53 + 970 : Nat) := fun h =>
      Nat.not_le.mpr (scaled_lt hnum hden) ((reaches_add e 53).mp (h.mono (by omega)))
    rw [reaches_natCast, scaled] at below
    omega
  · -- the middle between the greatest mantissa, which is odd, and the next one is rounded up
    have positive : 0 < den * powNum 2 e := Nat.mul_pos hden (powNum_pos e)
    have middle := lt_roundQuotient_iff (num * powDen 2 e) positive (2 ^ 53 - 1)
    have exponent : e = (1 + 970 : Nat) := heq
    have numerator : num * powDen 2 e = num := by
      rw [exponent, powDen_two, Int.toNat_neg_natCast, Nat.pow_zero, Nat.mul_one]
    have denominator : den * powNum 2 e = 2 * u := by
      rw [exponent, powNum_two, Int.toNat_natCast, Nat.mul_comm, scaled, Nat.pow_one]
    rw [numerator, denominator] at middle ⊢
    omega
  · have reached : Reaches num den (54 + 970 : Nat) := by
      refine Reaches.mono ((reaches_add e 52).mpr (le_scaled hnum hden ?_)) ?_ <;> omega
    rw [reaches_natCast, scaled] at reached
    omega

/-- What is known of the parts that a ratio is rounded to. -/
structure Parts (num den m : Nat) (e : Int) : Prop where
  mantissa_lt : m < 2 * fullMantissa
  exponent_ge : -1074 ≤ e
  full : fullMantissa ≤ m ∨ e = -1074
  exponent_le_iff : e ≤ 971 ↔ num < limit * den
  one_le : den ≤ num → -52 ≤ e
  exact : den = 1 → e < 0 → m = num * powDen 2 e

theorem Parts.canonical_iff {m : Nat} {e : Int} (h : Parts num den m e) :
    Canonical m e ↔ num < limit * den := by
  rw [← h.exponent_le_iff]
  exact ⟨fun c => c.2.2.1, fun he => ⟨h.mantissa_lt, h.exponent_ge, he, h.full⟩⟩

/-- The binade of a ratio that is not below one is not that of a fraction. -/
theorem le_targetExponent (hnum : 0 < num) (hden : 0 < den) (h : den ≤ num) :
    -52 ≤ targetExponent num den := by
  have one : Reaches num den (0 : Nat) := (reaches_natCast 0).mpr (by omega)
  have bound : 0 < binade num den + 1 := Int.lt_of_not_ge fun hle =>
    not_reaches_binade hnum hden (one.mono hle)
  unfold targetExponent
  omega

theorem powNum_of_nonpos {e : Int} (he : e ≤ 0) : powNum 2 e = 1 := by
  rw [powNum_two, Int.toNat_of_nonpos he, Nat.pow_zero]

/-- A positive ratio is rounded to parts whatever its sign; a mantissa that is rounded up to the
    next power of two is halved. -/
theorem exists_parts (hnum : 0 < num) (hden : 0 < den) :
    ∃ m e, (∀ s, roundRatio s num den = ofParts s m e) ∧ Parts num den m e := by
  have positive := Nat.mul_pos hden (powNum_pos (targetExponent num den))
  have upper := scaled_lt hnum hden
  have atMost := roundQuotient_le positive (Nat.le_of_lt upper)
  have atLeast := fun h => le_roundQuotient positive (le_scaled hnum hden h)
  have below := lt_limit_iff hnum hden
  have ge := le_targetExponent hnum hden
  have least : -1074 ≤ targetExponent num den := Int.le_max_right ..
  have unfolded : ∀ s, roundRatio s num den = _ := fun s => if_neg (Nat.ne_of_gt hnum)
  simp only [unfolded]
  dsimp only at below
  generalize targetExponent num den = e at *
  have full : fullMantissa = 2 ^ 52 := by decide
  by_cases carry : roundQuotient (num * powDen 2 e) (den * powNum 2 e) = 2 * fullMantissa
  · refine ⟨fullMantissa, e + 1, fun s => if_pos carry, ?_⟩
    refine ⟨by omega, by omega, .inl (Nat.le_refl _), by omega, by omega, fun hone he => ?_⟩
    -- an integer at a negative exponent is not rounded at all
    rw [hone, powNum_of_nonpos (by omega), Nat.mul_one] at carry upper
    rw [roundQuotient_one] at carry
    omega
  · refine ⟨_, e, fun s => if_neg carry, ?_⟩
    refine ⟨by omega, least, ?_, by omega, ge, fun hone he => ?_⟩
    · rw [full]
      exact (Decidable.em (e = -1074)).symm.imp_left atLeast
    · rw [hone, powNum_of_nonpos (Int.le_of_lt he), Nat.mul_one, roundQuotient_one]

/-! ### Rounded ratios -/

theorem ofParts_isFinite_iff (s : Bool) (m : Nat) (e : Int) :
    (ofParts s m e).isFinite = true ↔ Canonical m e := by
  unfold ofParts
  split
  case isTrue h => exact ⟨fun _ => h, fun _ => rfl⟩
  case isFalse h => exact ⟨fun hs => (nomatch hs), fun hc => absurd hc h⟩

/-- A ratio is rounded to a finite number exactly below the limit. -/
theorem roundRatio_isFinite_iff (s : Bool) (num : Nat) (hden : 0 < den) :
    (roundRatio s num den).isFinite = true ↔ num < limit * den := by
  rcases Nat.eq_zero_or_pos num with rfl | hnum
  · exact ⟨fun _ => Nat.mul_pos (Nat.zero_lt_of_lt one_lt_limit) hden, fun _ => rfl⟩
  · obtain ⟨m, e, hparts, h⟩ := exists_parts hnum hden
    rw [hparts, ofParts_isFinite_iff, h.canonical_iff]

theorem Finite.natAbs_num (x : Finite) : x.num.natAbs = x.mantissa * powNum 2 x.exponent := by
  unfold num
  dsimp only
  split
  · rw [Int.natAbs_neg, Int.natAbs_natCast]
  · exact Int.natAbs_natCast _

/-- The value is at least one in magnitude. -/
def Finite.OneLe (x : Finite) : Prop := x.den ≤ x.num.natAbs

theorem Finite.OneLe.isZero {x : Finite} (h : x.OneLe) : x.isZero = false := by
  refine beq_eq_false_iff_ne.mpr fun zero => ?_
  have positive := Nat.lt_of_lt_of_le x.den_pos h
  rw [x.natAbs_num, zero, Nat.zero_mul] at positive
  exact Nat.lt_irrefl 0 positive

theorem Finite.oneLe_of_full {x : Finite} (hm : fullMantissa ≤ x.mantissa)
    (he : -52 ≤ x.exponent) : x.OneLe := by
  rw [OneLe, natAbs_num, den, powDen_two]
  calc 2 ^ (-x.exponent).toNat ≤ 2 ^ 52 := Nat.pow_le_pow_right Nat.two_pos (by omega)
    _ = fullMantissa := rfl
    _ ≤ x.mantissa := hm
    _ ≤ x.mantissa * powNum 2 x.exponent := Nat.le_mul_of_pos_right _ (powNum_pos _)

theorem Finite.isIntegral_of_dvd {x : Finite} (h : x.den ∣ x.mantissa * powNum 2 x.exponent) :
    x.isIntegral = true := by
  refine beq_iff_eq.mpr (Int.emod_eq_zero_of_dvd (Int.natCast_dvd.mpr ?_))
  rwa [natAbs_num]

/-- An integer below the limit has a real with its sign, which is an integer too, and at least one
    in magnitude unless it is zero. -/
theorem exists_ofInt {n : Int} (hn : n ≠ 0) (h : n.natAbs < limit) :
    ∃ x, ofInt n = finite x ∧ x.negative = decide (n < 0) ∧ x.OneLe ∧ x.isIntegral = true := by
  have hnum : 0 < n.natAbs := Int.natAbs_pos.mpr hn
  obtain ⟨m, e, hparts, p⟩ := exists_parts hnum Nat.one_pos
  have canonical : Canonical m e := p.canonical_iff.mpr (by rwa [Nat.mul_one])
  have ge : -52 ≤ e := p.one_le hnum
  refine ⟨⟨decide (n < 0), m, e, canonical⟩, ?_, rfl, ?_, ?_⟩
  · rw [ofInt, ofRatio, hparts, ofParts, dif_pos canonical]
  · exact Finite.oneLe_of_full (p.full.resolve_right (by omega)) ge
  · refine Finite.isIntegral_of_dvd ?_
    show powDen 2 e ∣ m * powNum 2 e
    rcases Int.lt_or_le e 0 with he | he
    · rw [p.exact rfl he]
      exact Nat.dvd_mul_right_of_dvd (Nat.dvd_mul_left ..) _
    · rw [powDen_two, Int.toNat_of_nonpos (by omega), Nat.pow_zero]
      exact Nat.one_dvd _

theorem ofInt_isFinite_iff (n : Int) : (ofInt n).isFinite = true ↔ n.natAbs < limit := by
  rw [ofInt, ofRatio, roundRatio_isFinite_iff _ _ Nat.one_pos, Nat.mul_one]

/-! ### Integers and integer parts -/

/-- The target exponent of a ratio below `2 ^ k` leaves 53 bits below `2 ^ k`. -/
theorem targetExponent_le (hnum : 0 < num) (hden : 0 < den) {k : Nat} (h : num < 2 ^ k * den) :
    targetExponent num den ≤ max ((k : Int) - 53) (-1074) := by
  have below : binade num den < k := Int.lt_of_not_ge fun hk =>
    Nat.not_lt.mpr ((reaches_natCast k).mp ((reaches_binade hnum hden).mono hk)) h
  unfold targetExponent
  omega

/-- An integer of at most 53 bits is not rounded. -/
theorem ofInt_exact {n : Nat} (hn : 0 < n) (h : n < 2 ^ 53) :
    ∃ x, ofInt n = finite x ∧ x.negative = false ∧ x.num.natAbs = n * x.den := by
  have bound := targetExponent_le hn Nat.one_pos (k := 53) (by rwa [Nat.mul_one])
  have least : -1074 ≤ targetExponent n 1 := Int.le_max_right ..
  have upper := scaled_lt hn Nat.one_pos
  have lower := le_scaled hn Nat.one_pos
  have unfolded : ofInt n = roundRatio false n 1 := by
    rw [ofInt, ofRatio, decide_eq_false (by omega), Int.natAbs_natCast]
  have rounded : roundRatio false n 1 = _ := if_neg (Nat.ne_of_gt hn)
  rw [unfolded, rounded]
  dsimp only
  generalize targetExponent n 1 = e at *
  have unit : powNum 2 e = 1 := powNum_of_nonpos (by omega)
  rw [unit, Nat.mul_one] at upper lower
  rw [unit, Nat.mul_one, roundQuotient_one]
  have full : fullMantissa = 2 ^ 52 := by decide
  have canonical : Canonical (n * powDen 2 e) e := by
    refine ⟨by omega, least, by omega, ?_⟩
    rw [full]
    exact (Decidable.em (e = -1074)).symm.imp_left fun he => by have := lower he; omega
  refine ⟨⟨false, n * powDen 2 e, e, canonical⟩, ?_, rfl, ?_⟩
  · rw [if_neg (by omega), ofParts, dif_pos canonical]
  · rw [Finite.natAbs_num, unit, Nat.mul_one]
    rfl

theorem ofParts_of_isFinite {s : Bool} {m : Nat} {e : Int} (h : (ofParts s m e).isFinite = true) :
    ∃ c, ofParts s m e = finite ⟨s, m, e, c⟩ :=
  have c := (ofParts_isFinite_iff s m e).mp h
  ⟨c, dif_pos c⟩

/-- The integer part at an exponent that is not positive. -/
theorem Finite.truncate_of_nonpos {m : Nat} {e : Int} (c : Canonical m e) (he : e ≤ 0) :
    (⟨false, m, e, c⟩ : Finite).truncate = (m / powDen 2 e : Nat) := by
  show ((m * powNum 2 e : Nat) : Int).tdiv (powDen 2 e) = _
  rw [powNum_of_nonpos he, Nat.mul_one, Int.ofNat_tdiv]

/-- Rounding to a multiple of a unit of at most one half, and then cutting the fraction off: every
    integer is reached that the ratio reaches, and no other one than what the ratio misses by at
    most a quarter. -/
theorem le_roundQuotient_div (num : Nat) {den s : Nat} (hden : 0 < den) (hs : 2 ≤ s) (t : Nat) :
    (t * den ≤ num → t ≤ roundQuotient (num * s) den / s) ∧
      (t ≤ roundQuotient (num * s) den / s → 4 * (t * den) ≤ 4 * num + den) := by
  have units : t ≤ roundQuotient (num * s) den / s ↔ t * s ≤ roundQuotient (num * s) den :=
    Nat.le_div_iff_mul_le (by omega)
  rw [units]
  constructor
  · intro h
    refine le_roundQuotient hden ?_
    calc t * s * den = t * den * s := by ac_rfl
      _ ≤ num * s := Nat.mul_le_mul_right s h
  · intro h
    cases t with
    | zero => omega
    | succ t =>
      obtain ⟨u, hu⟩ : ∃ u, (t + 1) * s = u + 1 :=
        Nat.exists_eq_add_one.mpr (Nat.mul_pos t.succ_pos (by omega))
      have middle : (2 * u + 1) * den ≤ 2 * (num * s) := by
        rw [hu] at h
        rcases (lt_roundQuotient_iff (num * s) hden u).mp h with below | equal
        · exact Nat.le_of_lt below
        · exact Nat.le_of_eq equal.1
      refine Nat.le_of_mul_le_mul_right (c := s) ?_ (by omega)
      calc 4 * ((t + 1) * den) * s = 4 * ((t + 1) * s * den) := by ac_rfl
        _ = 2 * ((2 * u + 1) * den) + 2 * den := by
          rw [hu, Nat.add_mul, Nat.add_mul, Nat.mul_assoc]
          omega
        _ ≤ 2 * (2 * (num * s)) + s * den :=
          Nat.add_le_add (Nat.mul_le_mul_left 2 middle) (Nat.mul_le_mul_right den hs)
        _ = (4 * num + den) * s := by
          rw [Nat.add_mul, ← Nat.mul_assoc, Nat.mul_assoc 4, Nat.mul_comm s]

/-- The integer part of the number that a ratio below `2 ^ 52` is rounded to. -/
theorem truncate_roundRatio (hnum : 0 < num) (hden : 0 < den) (h : num < 2 ^ 52 * den) :
    ∃ (x : Finite) (k : Nat), roundRatio false num den = finite x ∧ x.truncate = k ∧
      ∀ t : Nat, (t * den ≤ num → t ≤ k) ∧ (t ≤ k → 4 * (t * den) ≤ 4 * num + den) := by
  have bound := targetExponent_le hnum hden h
  have isFinite : (roundRatio false num den).isFinite = true := by
    refine (roundRatio_isFinite_iff false num hden).mpr (Nat.lt_of_lt_of_le h ?_)
    exact Nat.mul_le_mul_right den (by decide +kernel)
  have unfolded : roundRatio false num den = _ := if_neg (Nat.ne_of_gt hnum)
  rw [unfolded] at isFinite ⊢
  dsimp only at isFinite ⊢
  generalize targetExponent num den = e at *
  have unit : powNum 2 e = 1 := powNum_of_nonpos (by omega)
  have half : powDen 2 e = 2 * powDen 2 (e + 1) := by
    rw [powDen_two, powDen_two, ← Nat.pow_succ']
    congr 1
    omega
  have scale : 2 ≤ powDen 2 e := by
    have := powDen_pos (e + 1)
    omega
  have reached := le_roundQuotient_div num hden scale
  rw [unit, Nat.mul_one] at isFinite ⊢
  split at isFinite
  case isTrue carry =>
    obtain ⟨c, hx⟩ := ofParts_of_isFinite isFinite
    refine ⟨_, roundQuotient (num * powDen 2 e) den / powDen 2 e, (if_pos carry).trans hx, ?_, reached⟩
    rw [Finite.truncate_of_nonpos c (by omega), carry, half, Nat.mul_div_mul_left _ _ Nat.two_pos]
  case isFalse carry =>
    obtain ⟨c, hx⟩ := ofParts_of_isFinite isFinite
    refine ⟨_, roundQuotient (num * powDen 2 e) den / powDen 2 e, (if_neg carry).trans hx, ?_, reached⟩
    exact Finite.truncate_of_nonpos c (by omega)

end DiceNotation.Binary64
