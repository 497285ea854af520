import DiceNotation.Number

/-!
Numerals are read as what they were written for.

The numeral of an integer consists of digits of ASCII after at most one sign. Nothing that a reader
takes away occurs in it, neither blanks nor underscores nor digits of other scripts (`plain?_of_plain`),
and its digits stand for the magnitude. Hence an integer within the limit of digits is read back as it
is (`readInt?_toString`).
-/

namespace DiceNotation.Text

/-- A character of numerals: a digit of ASCII or the sign of negative numbers. -/
def IsPlain (c : Char) : Prop := c.isDigit = true ∨ c = '-'

theorem IsPlain.toNat_lt {c : Char} (h : IsPlain c) : c.toNat < 128 := by
  rcases h with digit | rfl
  · have range := Char.isDigit_iff_toNat.mp digit
    exact Nat.lt_of_le_of_lt range.2 (by decide)
  · decide

/-- Characters of ASCII that are digits or signs are neither blank nor digits of other scripts. -/
theorem ascii_of_isPlain : ∀ n < 128, (Char.ofNat n).isDigit = true ∨ Char.ofNat n = '-' →
    isBlank (Char.ofNat n) = false ∧ plainDigit (Char.ofNat n) = Char.ofNat n := by
  decide +kernel

theorem IsPlain.ascii {c : Char} (h : IsPlain c) : isBlank c = false ∧ plainDigit c = c := by
  have ascii := ascii_of_isPlain c.toNat h.toNat_lt
  rw [Char.ofNat_toNat] at ascii
  exact ascii h

theorem IsPlain.ne_underscore {c : Char} (h : IsPlain c) : c ≠ '_' := by
  rintro rfl
  exact absurd h (by simp [IsPlain])

/-! ### What a reader takes away -/

theorem dropWhile_of_plain {cs : List Char} (h : ∀ c ∈ cs, IsPlain c) :
    cs.dropWhile isBlank = cs := by
  cases cs with
  | nil => rfl
  | cons c cs =>
    rw [List.dropWhile_cons, (h c List.mem_cons_self).ascii.1]
    rfl

theorem trim_of_plain {cs : List Char} (h : ∀ c ∈ cs, IsPlain c) : trim cs = cs := by
  rw [trim, dropWhile_of_plain h, dropWhile_of_plain, List.reverse_reverse]
  exact fun c hc => h c (List.mem_reverse.mp hc)

theorem joined?_of_plain : ∀ {cs : List Char} (afterDigit : Bool), (∀ c ∈ cs, IsPlain c) →
    joined? afterDigit cs = some cs
  | [], _, _ => rfl
  | c :: cs, _, h => by
    obtain ⟨hc, hcs⟩ := List.forall_mem_cons.mp h
    rw [joined?, if_neg hc.ne_underscore, joined?_of_plain _ hcs]
    rfl

/-- Nothing is taken away from a numeral. -/
theorem plain?_of_plain {s : String} (h : ∀ c ∈ s.toList, IsPlain c) : plain? s = some s.toList := by
  have ascii : s.toList.map plainDigit = s.toList :=
    (List.map_congr_left fun c hc => (h c hc).ascii.2).trans (List.map_id _)
  rw [plain?, trim_of_plain h, ascii, joined?_of_plain _ h]

/-! ### Signs and digits -/

/-- The number of decimal digits of a magnitude. -/
def digitCount (n : Nat) : Nat := (Nat.toDigits 10 n).length

theorem isDigit_of_mem_toDigits {n : Nat} {c : Char} (h : c ∈ Nat.toDigits 10 n) :
    c.isDigit = true :=
  Nat.isDigit_of_mem_toDigits (by decide) (by decide) h

/-- The digits of a number stand for it. -/
theorem digitsValue_toDigits (n : Nat) : digitsValue (Nat.toDigits 10 n) = n :=
  Nat.ofDigitChars_ten_toDigits

theorem takeSign_toDigits (n : Nat) : takeSign (Nat.toDigits 10 n) = (false, Nat.toDigits 10 n) := by
  have digits : ∀ c ∈ Nat.toDigits 10 n, c.isDigit = true := fun c => isDigit_of_mem_toDigits
  generalize Nat.toDigits 10 n = ds at digits
  unfold takeSign
  split
  · exact absurd (digits '-' List.mem_cons_self) (by decide)
  · exact absurd (digits '+' List.mem_cons_self) (by decide)
  · rfl

/-- A sign and the digits of a magnitude are read as the number that they make up. -/
theorem readInt?_of_digits {s : String} (negative : Bool) {n : Nat}
    (hplain : plain? s = some s.toList)
    (hsign : takeSign s.toList = (negative, Nat.toDigits 10 n))
    (hn : digitCount n ≤ maxDigits) :
    readInt? s = some (signed negative n) := by
  have digits : (Nat.toDigits 10 n).all Char.isDigit = true :=
    List.all_eq_true.mpr fun c => isDigit_of_mem_toDigits
  have nonempty : (Nat.toDigits 10 n).isEmpty = false :=
    List.isEmpty_eq_false_iff.mpr Nat.toDigits_ne_nil
  have few : decide (maxDigits < (Nat.toDigits 10 n).length) = false :=
    decide_eq_false (Nat.not_lt.mpr hn)
  have accepted : ((Nat.toDigits 10 n).isEmpty || !(Nat.toDigits 10 n).all Char.isDigit ||
      decide (maxDigits < (Nat.toDigits 10 n).length)) = false := by
    rw [nonempty, digits, few]
    rfl
  simp only [readInt?, hplain, Option.bind_eq_bind, Option.bind_some, hsign, accepted,
    Bool.false_eq_true, if_false, digitsValue_toDigits]

/-! ### The numeral of an integer -/

theorem toList_ofNat (n : Nat) : (toString (n : Int)).toList = Nat.toDigits 10 n := by
  rw [Int.toString_eq_repr]
  exact Nat.toList_repr

theorem toList_negSucc (n : Nat) :
    (toString (Int.negSucc n)).toList = '-' :: Nat.toDigits 10 (n + 1) := by
  rw [Int.toString_eq_repr]
  show ("-" ++ (n + 1).repr).toList = _
  rw [String.toList_append, Nat.toList_repr]
  rfl

theorem plain_of_mem_toString (n : Int) : ∀ c ∈ (toString n).toList, IsPlain c := by
  cases n with
  | ofNat n =>
    show ∀ c ∈ (toString (n : Int)).toList, IsPlain c
    rw [toList_ofNat]
    exact fun c hc => .inl (isDigit_of_mem_toDigits hc)
  | negSucc n =>
    rw [toList_negSucc, List.forall_mem_cons]
    exact ⟨.inr rfl, fun c hc => .inl (isDigit_of_mem_toDigits hc)⟩

/-- An integer that does not have too many digits is read as it was written. -/
theorem readInt?_toString {n : Int} (h : digitCount n.natAbs ≤ maxDigits) :
    readInt? (toString n) = some n := by
  have plain := plain?_of_plain (plain_of_mem_toString n)
  cases n with
  | ofNat n =>
    refine readInt?_of_digits false plain ?_ h
    exact (congrArg takeSign (toList_ofNat n)).trans (takeSign_toDigits n)
  | negSucc n =>
    refine readInt?_of_digits true plain ?_ h
    rw [toList_negSucc]
    rfl

/-- A numeral has the digits of its magnitude, and one character more at most. -/
theorem length_toString_le (n : Int) : (toString n).length ≤ digitCount n.natAbs + 1 := by
  rw [← String.length_toList]
  cases n with
  | ofNat n =>
    have digits : (toString (n : Int)).toList.length = digitCount n := congrArg _ (toList_ofNat n)
    exact Nat.le_succ_of_le (Nat.le_of_eq digits)
  | negSucc n =>
    rw [toList_negSucc, List.length_cons]
    exact Nat.le_refl _

end DiceNotation.Text
