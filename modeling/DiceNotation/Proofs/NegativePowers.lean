import DiceNotation.Proofs.Powers
import DiceNotation.Proofs.Quotients

/-!
Negative powers.

To a negative power zero is reported as a division by zero, unless the exponent is minus infinity,
or an integer that has no real, for that is noticed first (`powWith_zeroDivision_iff`,
`reportsZeroBase_iff`).

An integer to a negative integer is raised in reals, so that both must be below the limit of the
reals (`lt_limit_of_powWith_neg`). Below it there is a power of every base but zero, if only the
power function keeps a base that is not below one in range (`PowerFunction.StaysInRange`,
`exists_powWith_neg`). Above it there is none, though the positive power, which is an integer, may
have a reciprocal (`powerInverts_iff`).
-/

namespace DiceNotation

namespace Binary64

/-- What is relied on of a power function: at a negative exponent a base that is not below one does
    not leave the range, for its power is at most one. -/
def PowerFunction.StaysInRange (general : PowerFunction) : Prop :=
  ∀ x y : Finite, x.negative = false → x.OneLe → y.isBelowZero = true →
    (general x y).isFinite = true

/-- The power of a real at a negative integer, rounded once. -/
def reciprocalPower : PowerFunction := fun x y =>
  let k := y.truncate.natAbs
  roundRatio false (x.den ^ k) (x.num.natAbs ^ k)

theorem reciprocalPower_staysInRange : reciprocalPower.StaysInRange := by
  intro x y _ one _
  have positive : 0 < x.num.natAbs ^ y.truncate.natAbs :=
    Nat.pow_pos (Nat.lt_of_lt_of_le x.den_pos one)
  refine (roundRatio_isFinite_iff false _ positive).mpr ?_
  calc x.den ^ y.truncate.natAbs ≤ x.num.natAbs ^ y.truncate.natAbs := Nat.pow_le_pow_left one _
    _ < limit * x.num.natAbs ^ y.truncate.natAbs :=
        (Nat.lt_mul_iff_one_lt_left positive).mpr one_lt_limit

/-- The number is finite and below zero. -/
def BelowZero (y : Binary64) : Prop := ∃ w, y = finite w ∧ w.isBelowZero = true

theorem belowZero_finite_iff {y : Finite} : (finite y).BelowZero ↔ y.isBelowZero = true :=
  ⟨fun ⟨_, rfl, h⟩ => h, fun h => ⟨y, rfl, h⟩⟩

variable {general : PowerFunction}

theorem Finite.isBelowZero_isZero {y : Finite} (h : y.isBelowZero = true) : y.isZero = false := by
  rw [isBelowZero, Bool.and_eq_true, Bool.not_eq_true'] at h
  exact h.2

theorem Finite.OneLe.isBelowZero {x : Finite} (h : x.OneLe) : x.isBelowZero = x.negative := by
  rw [Finite.isBelowZero, h.isZero, Bool.not_false, Bool.and_true]

theorem Finite.isBelowZero_iff (x : Finite) : x.isBelowZero = true ↔ x.num < 0 := by
  have zero : x.mantissa = 0 ↔ x.mantissa * powNum 2 x.exponent = 0 := by
    rw [Nat.mul_eq_zero, or_iff_left (Nat.ne_of_gt (powNum_pos x.exponent))]
  rw [isBelowZero, isZero, num, Bool.and_eq_true, Bool.not_eq_true', beq_eq_false_iff_ne, zero.ne]
  generalize x.mantissa * powNum 2 x.exponent = m
  cases x.negative with
  | false =>
    rw [if_neg Bool.false_ne_true]
    exact ⟨fun h => (nomatch h.1), fun h => absurd h (Int.not_lt.mpr (Int.natCast_nonneg m))⟩
  | true =>
    rw [if_pos rfl, and_iff_right rfl]
    omega

theorem finitePower_zeroBase_iff (x y : Finite) :
    finitePower general x y = .error .zeroBase ↔ x.isZero = true ∧ y.isBelowZero = true := by
  unfold finitePower
  by_cases hx : x.isZero = true
  · rw [if_pos hx]
    by_cases hy : y.isBelowZero = true
    · rw [if_pos hy]
      exact ⟨fun _ => ⟨hx, hy⟩, fun _ => rfl⟩
    · rw [if_neg hy]
      exact ⟨fun h => (nomatch h), fun h => absurd h.2 hy⟩
  · rw [if_neg hx]
    refine ⟨fun h => ?_, fun h => absurd h.1 hx⟩
    dsimp only at h
    split at h
    · split at h <;> exact nomatch h
    · split at h
      · exact nomatch h
      · split at h <;> exact nomatch h

theorem power_zeroBase_iff (x y : Binary64) :
    x.power general y = .error .zeroBase ↔ x.isZero = true ∧ y.BelowZero := by
  unfold power
  by_cases hy : y.isZero = true
  · rw [if_pos hy]
    refine ⟨fun h => (nomatch h), fun h => ?_⟩
    obtain ⟨-, w, rfl, below⟩ := h
    exact absurd hy (Bool.eq_false_iff.mp (Finite.isBelowZero_isZero below))
  · rw [if_neg hy]
    cases x with
    | nan => exact ⟨fun h => (nomatch h), fun h => (nomatch h.1)⟩
    | infinite s => cases y <;> exact ⟨fun h => (nomatch h), fun h => (nomatch h.1)⟩
    | finite x =>
      cases y with
      | nan => exact ⟨fun h => (nomatch h), fun ⟨_, _, h, _⟩ => (nomatch h)⟩
      | infinite t => exact ⟨fun h => (nomatch h), fun ⟨_, _, h, _⟩ => (nomatch h)⟩
      | finite y =>
        rw [belowZero_finite_iff]
        exact finitePower_zeroBase_iff x y

theorem negateIf_isFinite (c : Bool) (x : Binary64) : (negateIf c x).isFinite = x.isFinite := by
  cases c with
  | false => rfl
  | true => cases x <;> rfl

theorem Finite.abs_oneLe {x : Finite} (h : x.OneLe) : x.abs.OneLe := by
  rw [OneLe, natAbs_num] at h ⊢
  exact h

/-- A base that is at least one in magnitude has a finite power at every negative integer. -/
theorem finitePower_isFinite (h : general.StaysInRange) {x y : Finite} (hx : x.OneLe)
    (hy : y.isBelowZero = true) (integral : y.isIntegral = true) :
    ∃ r, finitePower general x y = .ok r ∧ r.isFinite = true := by
  unfold finitePower
  rw [hx.isZero, integral, Bool.not_true, Bool.and_false, if_neg Bool.false_ne_true,
    if_neg Bool.false_ne_true]
  dsimp only
  split
  · exact ⟨_, rfl, (negateIf_isFinite _ one).trans rfl⟩
  · have inRange := h x.abs y rfl (Finite.abs_oneLe hx) hy
    rw [if_pos inRange]
    exact ⟨_, rfl, (negateIf_isFinite _ _).trans inRange⟩

end Binary64

namespace Number

variable {general : Binary64.PowerFunction}

theorem powReal_zeroDivision_iff (x y : Binary64) :
    powReal general x y = .error .zeroDivision ↔ x.isZero = true ∧ y.BelowZero := by
  have zeroBase : x.power general y = _ ↔ _ := Binary64.power_zeroBase_iff x y
  rw [← zeroBase, powReal]
  cases x.power general y with
  | ok r => exact ⟨fun h => absurd h (settle_ne_zeroDivision r), fun h => (nomatch h)⟩
  | error f =>
    cases f with
    | zeroBase => exact ⟨fun _ => rfl, fun _ => rfl⟩
    | tooLarge => exact ⟨fun h => (nomatch h), fun h => (nomatch h)⟩
    | notReal => exact ⟨fun h => (nomatch h), fun h => (nomatch h)⟩

theorem int_lt_zero_iff (n : Int) : (int n).lt (int 0) = true ↔ n < 0 := by
  show decide (n * (1 : Nat) < 0 * (1 : Nat)) = true ↔ _
  rw [decide_eq_true_iff]
  omega

/-- Below zero as numbers are compared: minus infinity is, and the negative zero is not. -/
theorem real_lt_zero_iff (x : Binary64) :
    (real x).lt (int 0) = true ∧ x.isFinite = true ↔ x.BelowZero := by
  cases x with
  | nan => exact ⟨fun h => (nomatch h.2), fun ⟨_, h, _⟩ => (nomatch h)⟩
  | infinite s => exact ⟨fun h => (nomatch h.2), fun ⟨_, h, _⟩ => (nomatch h)⟩
  | finite x =>
    rw [Binary64.belowZero_finite_iff, Binary64.Finite.isBelowZero_iff]
    show decide (x.num * (1 : Nat) < 0 * (x.den : Int)) = true ∧ true = true ↔ _
    rw [decide_eq_true_iff, Int.zero_mul, Nat.cast_one, Int.mul_one]
    exact and_iff_left rfl

/-- The real of a number is finite and below zero if the number is. -/
theorem toReal_belowZero_iff {n : Number} {y : Binary64} (h : n.toReal = .ok y) :
    y.BelowZero ↔ n.lt (int 0) = true ∧ n.isFinite = true := by
  cases n with
  | real x =>
    cases h
    exact (real_lt_zero_iff y).symm
  | int n =>
    rw [int_lt_zero_iff]
    by_cases fits : n.natAbs < Binary64.limit
    · rw [toReal_int fits] at h
      cases h
      by_cases hn : n = 0
      · rw [hn]
        refine ⟨fun ⟨x, hx, below⟩ => ?_, fun h => absurd h.1 (Int.lt_irrefl 0)⟩
        cases hx
        exact nomatch below
      · obtain ⟨x, hx, sign, one, -⟩ := Binary64.exists_ofInt hn fits
        rw [hx, Binary64.belowZero_finite_iff, one.isBelowZero, sign, decide_eq_true_iff]
        exact (and_iff_left rfl).symm
    · rw [toReal_int_of_not fits] at h
      exact nomatch h

theorem powNat_ne_zeroDivision (b : Int) (e : Nat) : powNat b e ≠ .error .zeroDivision := by
  rw [powNat_eq]
  split <;> exact fun h => (nomatch h)

/-- All but the powers of integers to natural exponents are taken in reals. -/
theorem powWith_inReals {m n : Number} (h : ∀ b e, m = int b → n ≠ int (.ofNat e)) :
    m.powWith general n = (do powReal general (← m.toReal) (← n.toReal)) := by
  unfold powWith
  split
  · exact absurd rfl (h _ _ rfl)
  · rfl

/-- A zero base is reported at the negative exponents that have a finite real. -/
theorem powWith_zeroDivision_iff (m n : Number) :
    m.powWith general n = .error .zeroDivision ↔
      (m.isZero = true ∧ n.lt (int 0) = true) ∧ n.Fits ∧ n.isFinite = true := by
  by_cases natural : ∃ b e, m = int b ∧ n = int (.ofNat e)
  · obtain ⟨b, e, rfl, rfl⟩ := natural
    refine ⟨fun h => absurd h (powNat_ne_zeroDivision b e), fun h => ?_⟩
    exact absurd ((int_lt_zero_iff _).mp h.1.2) (Int.not_lt.mpr (Int.natCast_nonneg e))
  · rw [powWith_inReals fun b e hm hn => natural ⟨b, e, hm, hn⟩]
    rcases m.toReal_cases with ⟨-, x, hx, zero⟩ | ⟨-, hx, -, zero⟩
    · rcases n.toReal_cases with ⟨fits, y, hy, -⟩ | ⟨unfit, hy, -⟩
      · rw [hx, hy]
        show powReal general x y = _ ↔ _
        rw [powReal_zeroDivision_iff, zero, toReal_belowZero_iff hy]
        exact ⟨fun h => ⟨⟨h.1, h.2.1⟩, fits, h.2.2⟩, fun h => ⟨h.1.1, h.1.2, h.2.2⟩⟩
      · rw [hx, hy]
        exact ⟨fun h => (nomatch h), fun h => absurd h.2.1 unfit⟩
    · rw [hx, zero]
      exact ⟨fun h => (nomatch h), fun h => (nomatch h.1.1)⟩

/-! ### Negative powers of integers -/

theorem int_powWith_neg (b : Int) {k : Nat} (hk : k ≠ 0) : (int b).powWith general (int (-k)) =
    (do powReal general (← (int b).toReal) (← (int (-k)).toReal)) := by
  refine powWith_inReals fun _ e _ h => ?_
  have same : -(k : Int) = e := Number.int.inj h
  omega

/-- Both integers have reals where there is a negative power. -/
theorem lt_limit_of_powWith_neg {b : Int} {k : Nat} (hk : k ≠ 0) {r : Number}
    (h : (int b).powWith general (int (-k)) = .ok r) :
    b.natAbs < Binary64.limit ∧ k < Binary64.limit := by
  rw [int_powWith_neg b hk] at h
  by_cases base : b.natAbs < Binary64.limit
  · refine ⟨base, Decidable.byContradiction fun exponent => ?_⟩
    rw [← Int.natAbs_natCast k, ← Int.natAbs_neg] at exponent
    rw [toReal_int base, toReal_int_of_not exponent] at h
    exact nomatch h
  · rw [toReal_int_of_not base] at h
    exact nomatch h

/-- Where both integers have reals, there is a negative power. -/
theorem exists_powWith_neg (h : general.StaysInRange) {b : Int} (hb : b ≠ 0) {k : Nat} (hk : k ≠ 0)
    (base : b.natAbs < Binary64.limit) (exponent : k < Binary64.limit) :
    ∃ r, (int b).powWith general (int (-k)) = .ok r := by
  have negative : -(k : Int) < 0 := by omega
  rw [← Int.natAbs_natCast k, ← Int.natAbs_neg] at exponent
  obtain ⟨x, hx, -, atLeastOne, -⟩ := Binary64.exists_ofInt hb base
  obtain ⟨y, hy, sign, one, integral⟩ := Binary64.exists_ofInt (Int.ne_of_lt negative) exponent
  have below : y.isBelowZero = true := by
    rw [one.isBelowZero, sign]
    exact decide_eq_true negative
  obtain ⟨r, hr, finite⟩ := Binary64.finitePower_isFinite h atLeastOne below integral
  have nonzero : (Binary64.finite y).isZero = false := one.isZero
  have power : (Binary64.finite x).power general (.finite y) = .ok r := by
    rw [Binary64.power, if_neg (Bool.eq_false_iff.mp nonzero)]
    exact hr
  refine ⟨real r, ?_⟩
  rw [int_powWith_neg b hk, toReal_int base, toReal_int exponent, hx, hy]
  show powReal general _ _ = _
  rw [powReal, power]
  exact if_pos finite

end Number

namespace Value

/-! ### Zero to a negative power -/

theorem pow_eq_divisionByZero_iff {v w : Value} {m n : Number}
    (hv : v.operand .pow = .ok (.number m)) (hw : w.operand .pow = .ok (.number n)) :
    v.pow w = fail (.divisionByZero InfixOp.pow) ↔
      (m.isZero = true ∧ n.lt (.int 0) = true) ∧ n.Fits ∧ n.isFinite = true := by
  have power : v.pow w = (settleFor InfixOp.pow (m.pow n)).map number := binary_numbers hv hw
  rw [power, settleFor_divisionByZero_iff]
  exact Number.powWith_zeroDivision_iff m n

/-- A power is reported as a division by zero exactly if the base is zero and the exponent negative. -/
def ReportsZeroBase (v w : Value) (base exponent : Number) : Prop :=
  v.pow w = fail (.divisionByZero InfixOp.pow) ↔
    base.isZero = true ∧ exponent.lt (.int 0) = true

/-- When a power of operands that stand for numbers is reported as a division by zero exactly if the
    base is zero and the exponent negative: unless the base is zero and the exponent is minus
    infinity or a negative integer from the limit of the reals on. -/
theorem reportsZeroBase_iff {v w : Value} {m n : Number}
    (hv : v.operand .pow = .ok (.number m)) (hw : w.operand .pow = .ok (.number n)) :
    v.ReportsZeroBase w m n ↔
      (m.isZero = true → n.lt (.int 0) = true → n.Fits ∧ n.isFinite = true) := by
  rw [ReportsZeroBase, pow_eq_divisionByZero_iff hv hw, ← and_imp]
  exact and_iff_left_iff_imp

/-- No dice to the power minus one half. -/
theorem empty_pool_to_negative_half :
    let half : Binary64 := .finite ⟨true, Binary64.fullMantissa, -53, by decide⟩
    (Value.list []).operand .pow = .ok (.number (.int 0)) ∧
      (real half).operand .pow = .ok (.number (.real half)) ∧
      (Value.list []).ReportsZeroBase (real half) (.int 0) (.real half) := by
  intro half
  have hv : (Value.list []).operand .pow = .ok (.number (.int 0)) := rfl
  have hw : (real half).operand .pow = .ok (.number (.real half)) := rfl
  exact ⟨hv, hw, (reportsZeroBase_iff hv hw).mpr fun _ _ => ⟨trivial, rfl⟩⟩

/-- An exponent beyond the limit has no real, and at the base zero only that is reported. -/
theorem zero_base_unreported :
    ¬(int 0).ReportsZeroBase (int (-(2 ^ 1024))) (.int 0) (.int (-(2 ^ 1024))) := by
  intro reports
  have negative : (Number.int (-(2 ^ 1024))).lt (.int 0) = true :=
    (Number.int_lt_zero_iff _).mpr (by decide +kernel)
  have large : ¬(-(2 ^ 1024) : Int).natAbs < Binary64.limit := by decide +kernel
  have reported := (pow_eq_divisionByZero_iff rfl rfl).mp (reports.mpr ⟨rfl, negative⟩)
  exact large reported.2.1

/-! ### Reciprocals of powers -/

/-- If an integer has a power and that has a reciprocal, then the integer has the negative power. -/
def PowerInverts (general : Binary64.PowerFunction) (b : Int) (k : Nat) : Prop :=
  ∀ p : Int, (int b).powWith general (int k) = .ok (int p) →
    (∃ q, (int 1).div (int p) = .ok (number q)) →
      ∃ r, (int b).powWith general (int (-k)) = .ok (number r)

/-- Integers have a power as values if they have one as numbers. -/
theorem int_powWith_int_iff {general : Binary64.PowerFunction} {b e : Int} :
    (∃ r, (int b).powWith general (int e) = .ok (number r)) ↔
      ∃ r, (Number.int b).powWith general (.int e) = .ok r := by
  have power : (int b).powWith general (int e) =
      (settleFor InfixOp.pow ((Number.int b).powWith general (.int e))).map number :=
    binary_numbers rfl rfl
  rw [power]
  cases (Number.int b).powWith general (.int e) with
  | ok r => exact ⟨fun _ => ⟨r, rfl⟩, fun _ => ⟨r, rfl⟩⟩
  | error f =>
    refine ⟨fun ⟨_, h⟩ => ?_, fun ⟨_, h⟩ => (nomatch h)⟩
    cases f <;> exact nomatch h

/-- A power that is computed is an integer other than zero, and has a reciprocal. -/
theorem powerInverts_of_computed {general : Binary64.PowerFunction} {b : Int} (hb : b ≠ 0) {k : Nat}
    (computed : ¬2 ^ 20 < b.natAbs.log2 * k) :
    PowerInverts general b k ↔ ∃ r, (Number.int b).powWith general (.int (-k)) = .ok r := by
  rw [← int_powWith_int_iff]
  have power := (Totals.int b).powWith general (Totals.int k)
  rw [if_neg computed] at power
  exact ⟨fun inverts => inverts _ power (one_div_int (pow_ne_zero k hb)), fun h _ _ _ => h⟩

/-- When an integer other than zero has the negative power too: if the power itself is refused, or
    both the integer and the exponent are below the limit of the reals. -/
theorem powerInverts_iff {general : Binary64.PowerFunction} (h : general.StaysInRange) {b : Int}
    (hb : b ≠ 0) {k : Nat} (hk : k ≠ 0) :
    PowerInverts general b k ↔
      2 ^ 20 < (Number.bitLength b.natAbs - 1) * k ∨
        b.natAbs < Binary64.limit ∧ k < Binary64.limit := by
  rw [Number.bitLength_sub_one]
  by_cases refused : 2 ^ 20 < b.natAbs.log2 * k
  · have power := (Totals.int b).powWith general (Totals.int k)
    rw [if_pos refused] at power
    exact ⟨fun _ => .inl refused, fun _ p hp => (nomatch power.symm.trans hp)⟩
  · rw [powerInverts_of_computed hb refused, or_iff_right refused]
    refine ⟨fun ⟨_, hr⟩ => Number.lt_limit_of_powWith_neg hk hr, fun ⟨base, exponent⟩ => ?_⟩
    exact Number.exists_powWith_neg h hb hk base exponent

/-- Minus two to the power ten, and to minus ten. -/
theorem power_of_minus_two_inverts :
    Binary64.reciprocalPower.StaysInRange ∧ (-2 : Int) ≠ 0 ∧ 10 ≠ 0 ∧
      PowerInverts Binary64.reciprocalPower (-2) 10 :=
  ⟨Binary64.reciprocalPower_staysInRange, by decide, by decide,
    (powerInverts_iff Binary64.reciprocalPower_staysInRange (by decide) (by decide)).mpr
      (.inr (by decide +kernel))⟩

/-- An integer beyond the limit is its own first power and has a reciprocal, but its power minus one
    is taken in reals, and it has none. -/
theorem power_of_large_not_inverted : ¬PowerInverts Binary64.systemPower (2 ^ 1024) 1 := by
  have computed : ¬2 ^ 20 < (2 ^ 1024 : Int).natAbs.log2 * 1 := by decide +kernel
  have large : ¬(2 ^ 1024 : Int).natAbs < Binary64.limit := by decide +kernel
  rw [powerInverts_of_computed (by decide +kernel) computed]
  exact fun ⟨_, hr⟩ => large (Number.lt_limit_of_powWith_neg Nat.one_ne_zero hr).1

end Value

end DiceNotation
