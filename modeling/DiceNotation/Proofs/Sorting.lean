import Mathlib.Data.List.Sort
import DiceNotation.Proofs.ExactOrder
import DiceNotation.Proofs.Sums

/-!
The function `sort`.

The items of a list of numbers are merge sorted by a comparison that follows their exact values, as long
as NaN is not among them (`Builtin.sort_ascending`). So the sort has what is known of sorting by a key
(`sortBy`): no item is lost, the values ascend, items with the same value stay in their order, and what
is sorted is left alone. Anything but a single list of numbers is refused (`sort_sorts`).
-/

namespace DiceNotation

/-! ### Sorting by a key -/

section

variable {α β : Type} [LinearOrder β] (key : α → β)

/-- The items in ascending order of their keys, those with the same key in the order they are in. -/
def sortBy (items : List α) : List α := items.mergeSort fun a b => decide (key a ≤ key b)

theorem decide_key_trans (a b c : α) (hab : decide (key a ≤ key b) = true)
    (hbc : decide (key b ≤ key c) = true) : decide (key a ≤ key c) = true := by
  rw [decide_eq_true_iff] at hab hbc ⊢
  exact hab.trans hbc

theorem decide_key_total (a b : α) : (decide (key a ≤ key b) || decide (key b ≤ key a)) = true := by
  simp [le_total]

theorem sortBy_perm (items : List α) : (sortBy key items).Perm items := List.mergeSort_perm _ _

theorem sortBy_ascending (items : List α) :
    (sortBy key items).Pairwise fun a b => key a ≤ key b := by
  simpa [sortBy] using
    List.pairwise_mergeSort (decide_key_trans key) (decide_key_total key) items

/-- Items that are in ascending order are left alone. -/
theorem sortBy_of_ascending {items : List α} (h : items.Pairwise fun a b => key a ≤ key b) :
    sortBy key items = items :=
  List.mergeSort_of_pairwise (by simpa using h)

/-- Items with the same key stay in their order: they are an ascending part of the list, and such a
    part is not torn apart. -/
theorem filter_sortBy (items : List α) (k : β) :
    (sortBy key items).filter (fun a => key a = k) = items.filter fun a => key a = k := by
  have same : (items.filter fun a => key a = k).Pairwise fun a b =>
      decide (key a ≤ key b) = true := by
    refine List.pairwise_of_forall_mem_list ?_
    intro a ha b hb
    simp only [List.mem_filter, decide_eq_true_eq] at ha hb
    simp [ha.2, hb.2]
  have whole : (items.filter fun a => key a = k).Sublist (sortBy key items) :=
    List.sublist_mergeSort (decide_key_trans key) (decide_key_total key) same List.filter_sublist
  have part := whole.filter fun a => decide (key a = k)
  rw [List.filter_filter] at part
  simp only [Bool.and_self] at part
  have length := ((sortBy_perm key items).filter fun a => decide (key a = k)).length_eq
  exact (part.eq_of_length length.symm).symm

end

/-! ### Sorting numbers -/

namespace Builtin

/-- Items are looked at for what they hold, and then kept beside it. -/
theorem mapM_with_content (vs : List Value) :
    (vs.mapM fun v => do return (v, ← v.content)) = (vs.mapM Value.content).map vs.zip := by
  induction vs with
  | nil => rfl
  | cons v vs ih =>
    rw [List.mapM_cons, List.mapM_cons, ih]
    cases v.content with
    | error f => rfl
    | ok c => cases vs.mapM Value.content <;> rfl

/-- Numbers hold what they should, and can be compared. -/
theorem keyed_numbers (ns : List Number) :
    keyed (ns.map .number) = .ok (ns.map fun n => (.number n, .number n)) := by
  rw [keyed, mapM_with_content, Value.content_numbers]
  simp [Except.map, bind, Except.bind, List.zip_map', Scalar.comparable, Scalar.number?]

theorem keyed_mismatch (ns : List Number) {w : Value} {found : ValueType}
    (hw : w.numberContent? = none) (hfound : w.type? = .ok found) (post : List Value) :
    keyed (ns.map .number ++ w :: post) = fail (.typeMismatch "number" found) := by
  rw [keyed, mapM_with_content, Value.mapM_content_mismatch ns hw hfound post]
  rfl

/-- Is the first number allowed to stand before the second? -/
def mayPrecede (m n : Number) : Bool := !n.lt m

theorem sort_numbers (ns : List Number) :
    sort.apply [.list (ns.map .number)] = .ok (.list ((ns.mergeSort mayPrecede).map .number)) := by
  let item : Number → Value × Scalar := fun n => (.number n, .number n)
  have items : (ns.mergeSort mayPrecede).map item = (ns.map item).mergeSort notAfter :=
    List.map_mergeSort fun _ _ _ _ => rfl
  have sorted : sort.apply [.list (ns.map .number)] =
      .ok (.list (((ns.map item).mergeSort notAfter).map (·.1))) := by
    rw [apply, expectOne]
    show sortOf (.list (ns.map .number)) = _
    rw [sortOf, keyed_numbers]
    rfl
  rw [sorted, ← items, List.map_map]
  rfl

/-- Where NaN is not among the numbers, they are sorted by their exact values. -/
theorem sort_ascending {ns : List Number} (h : ∀ n ∈ ns, n ≠ .real .nan) :
    sort.apply [.list (ns.map .number)] = .ok (.list ((sortBy Number.value ns).map .number)) := by
  have compared : ∀ m ∈ ns, ∀ n ∈ ns, mayPrecede m n = decide (m.value ≤ n.value) := by
    intro m hm n hn
    rw [Bool.eq_iff_iff, decide_eq_true_iff, ← not_lt, ← Number.lt_iff (h n hn) (h m hm)]
    simp [mayPrecede]
  have same := List.map_mergeSort (r := mayPrecede) (f := id)
    (s := fun m n => decide (m.value ≤ n.value)) compared
  rw [List.map_id, List.map_id] at same
  rw [sort_numbers, same, sortBy]

end Builtin

/-! ### Other arguments -/

theorem Builtin.sort_other {v : Value} {found : ValueType} (hv : v.isList = false)
    (hfound : v.type? = .ok found) :
    sort.apply [v] = fail (.typeMismatch ValueType.list found) := by
  have rejected : sortOf v = (do fail (.typeMismatch ValueType.list (← v.type?))) := by
    cases v with
    | list vs => simp [Value.isList] at hv
    | _ => rfl
  show sortOf v = _
  rw [rejected, hfound]
  rfl

theorem Builtin.sort_mismatch (ns : List Number) {w : Value} {found : ValueType}
    (hw : w.numberContent? = none) (hfound : w.type? = .ok found) (post : List Value) :
    sort.apply [.list (ns.map .number ++ w :: post)] = fail (.typeMismatch "number" found) := by
  show sortOf (.list _) = _
  rw [sortOf, keyed_mismatch ns hw hfound post]
  rfl

theorem Builtin.sort_arity {args : List Value} (h : args.length ≠ 1) :
    sort.apply args = fail (.arityMismatch "sort" (.int 1) (.int args.length)) := by
  rcases args with _ | ⟨v, _ | ⟨w, args⟩⟩
  · rfl
  · simp at h
  · rfl

/-- The function `sort` sorts. Of a list of numbers, NaN not among them, it gives a list of the same
    numbers, each of its own kind, in ascending order of their exact values; those with the same value
    are in the order they were in, and to sort the list once more changes nothing. A well-formed value
    that is no list is refused for what it is, and a list with items that are no numbers for what the
    first of these is. So is any number of arguments but one. How numbers with NaN among them are
    arranged is left open, as nothing compares with NaN. -/
theorem sort_sorts :
    (∀ ns : List Number, (∀ n ∈ ns, n ≠ .real .nan) → ∃ ms : List Number,
      Builtin.sort.apply [.list (ns.map .number)] = .ok (.list (ms.map .number)) ∧
      ms.Perm ns ∧
      (ms.Pairwise fun m n => m.value ≤ n.value) ∧
      (∀ q, (ms.filter fun n => n.value = q) = ns.filter fun n => n.value = q) ∧
      Builtin.sort.apply [.list (ms.map .number)] = .ok (.list (ms.map .number))) ∧
    (∀ v : Value, v.wellFormed = true → v.isList = false → ∃ found, v.type? = .ok found ∧
      Builtin.sort.apply [v] = fail (.typeMismatch ValueType.list found)) ∧
    (∀ vs : List Value, (Value.list vs).wellFormed = true →
      (¬∃ ns : List Number, vs = ns.map .number) →
      ∃ (ns : List Number) (w : Value) (post : List Value) (found : ValueType),
        vs = ns.map .number ++ w :: post ∧ (¬∃ n, w = .number n) ∧ w.type? = .ok found ∧
        Builtin.sort.apply [.list vs] = fail (.typeMismatch "number" found)) ∧
    (∀ args : List Value, args.length ≠ 1 →
      Builtin.sort.apply args = fail (.arityMismatch "sort" (.int 1) (.int args.length))) := by
  refine ⟨?_, ?_, ?_, ?_⟩
  · intro ns h
    have perm := sortBy_perm Number.value ns
    have again : ∀ n ∈ sortBy Number.value ns, n ≠ .real .nan := fun n hn => h n (perm.mem_iff.mp hn)
    have ascending := sortBy_ascending Number.value ns
    refine ⟨_, Builtin.sort_ascending h, perm, ascending, filter_sortBy Number.value ns, ?_⟩
    rw [Builtin.sort_ascending again, sortBy_of_ascending _ ascending]
  · intro v hv hlist
    obtain ⟨found, hfound⟩ := Value.exists_type hv
    exact ⟨found, hfound, Builtin.sort_other hlist hfound⟩
  · intro vs hvs hnumbers
    rw [Value.wellFormed, Value.allWellFormed_eq_all, List.all_eq_true] at hvs
    obtain hns | ⟨ns, w, post, found, rfl, hw, hfound⟩ := Value.numbers_or_first_other hvs
    · exact absurd hns hnumbers
    · refine ⟨ns, w, post, found, rfl, ?_, hfound, Builtin.sort_mismatch ns hw hfound post⟩
      rintro ⟨n, rfl⟩
      simp [Value.numberContent?] at hw
  · intro args h
    exact Builtin.sort_arity h

/-- An integer is put after the real that it would be rounded to, which is less by one. -/
theorem integer_after_rounded_real :
    let even : Number := .real (Binary64.ofInt 9007199254740992)
    let odd : Number := .int 9007199254740993
    Binary64.ofInt 9007199254740993 = Binary64.ofInt 9007199254740992 ∧
      (∀ n ∈ [odd, even], n ≠ .real .nan) ∧
      Builtin.sort.apply [.list [.number odd, .number even]] =
        .ok (.list [.number even, .number odd]) := by
  intro even odd
  have noNan : ∀ n ∈ [odd, even], n ≠ .real .nan := by decide
  have less : even.value < odd.value := (Number.lt_iff (by decide) (by decide)).mp (by decide)
  obtain ⟨ms, hms, perm, ascending, -⟩ := sort_sorts.1 [odd, even] noNan
  have swapped : ms = [even, odd] := by
    refine (perm.trans (.swap even odd [])).eq_of_pairwise ?_ ascending (by simp [less.le])
    intro a b ha hb hab hba
    simp only [perm.mem_iff, List.mem_cons, List.not_mem_nil, or_false] at ha hb
    rcases ha with rfl | rfl <;> rcases hb with rfl | rfl
    · exact absurd hab less.not_ge
    · rfl
    · rfl
    · exact absurd hba less.not_ge
  rw [swapped] at hms
  exact ⟨by decide, noNan, hms⟩

end DiceNotation
