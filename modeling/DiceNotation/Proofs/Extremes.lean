import DiceNotation.Proofs.Sorting

/-!
The functions `max` and `min`.

Both look at the numbers among their arguments from left to right and keep the best so far, which
only a better one replaces. So what is left at the end is the first of the greatest, or of the least
(`FirstGreatest.foldl`). The least stands at the front when the numbers are sorted, for sorting does not
exchange numbers that are equal, and at the back stands one that is equal to the greatest. How the
numbers are grouped into lists makes no difference, to these two or to `sum`, even where they fail
(`extremes_agree_with_sort`).
-/

namespace DiceNotation

/-! ### The first of the greatest -/

section

variable {α β : Type} [LinearOrder β] {key : α → β} {items : List α} {best : α}

/-- The item is the first of the greatest ones: those before it are below, and none after it is
    above. -/
def FirstGreatest (key : α → β) (items : List α) (best : α) : Prop :=
  ∃ before after, items = before ++ best :: after ∧
    (∀ a ∈ before, key a < key best) ∧ ∀ a ∈ after, key a ≤ key best

theorem FirstGreatest.mem (h : FirstGreatest key items best) : best ∈ items := by
  obtain ⟨before, after, rfl, -, -⟩ := h
  simp

theorem FirstGreatest.le (h : FirstGreatest key items best) : ∀ a ∈ items, key a ≤ key best := by
  obtain ⟨before, after, rfl, below, notAbove⟩ := h
  intro a ha
  rcases List.mem_append.mp ha with ha | ha
  · exact (below a ha).le
  · rcases List.mem_cons.mp ha with rfl | ha
    · exact le_rfl
    · exact notAbove a ha

/-- A later item takes the place if it is above. -/
theorem FirstGreatest.concat (h : FirstGreatest key items best) (x : α) :
    FirstGreatest key (items ++ [x]) (if key best < key x then x else best) := by
  by_cases hx : key best < key x
  · rw [if_pos hx]
    exact ⟨items, [], rfl, fun a ha => (h.le a ha).trans_lt hx, by simp⟩
  · rw [if_neg hx]
    obtain ⟨before, after, rfl, below, notAbove⟩ := h
    refine ⟨before, after ++ [x], by simp, below, ?_⟩
    intro a ha
    rcases List.mem_append.mp ha with ha | ha
    · exact notAbove a ha
    · obtain rfl := List.mem_singleton.mp ha
      exact not_lt.mp hx

/-- To keep the best so far is to find the first of the greatest. -/
theorem FirstGreatest.foldl (beats : α → α → Bool) {rest : List α} {items : List α} {best : α}
    (h : FirstGreatest key items best)
    (hbeats : ∀ a ∈ items ++ rest, ∀ b ∈ items ++ rest, beats a b = decide (key b < key a)) :
    FirstGreatest key (items ++ rest)
      (rest.foldl (fun best x => if beats x best then x else best) best) := by
  induction rest generalizing items best with
  | nil => simpa using h
  | cons x rest ih =>
    rw [List.append_cons] at hbeats ⊢
    have step : (if beats x best then x else best) = if key best < key x then x else best := by
      rw [hbeats x (by simp) best (by simp [h.mem])]
      simp
    rw [List.foldl_cons, step]
    exact ih (h.concat x) hbeats

theorem FirstGreatest.find?_eq (h : FirstGreatest key items best) :
    (items.find? fun a => ∀ b ∈ items, key b ≤ key a) = some best := by
  have greatest := h.le
  have member := h.mem
  obtain ⟨before, after, hitems, below, -⟩ := h
  rw [List.find?_eq_some_iff_append]
  refine ⟨by simpa using greatest, before, after, hitems, ?_⟩
  intro a ha
  simpa using ⟨best, member, below a ha⟩

/-- Among the items that are equal to it, the first of the greatest is the first. -/
theorem FirstGreatest.head?_filter (h : FirstGreatest key items best) :
    (items.filter fun a => key a = key best).head? = some best := by
  obtain ⟨before, after, rfl, below, -⟩ := h
  have none_before : (before.filter fun a => key a = key best) = [] := by
    simpa using fun a ha => (below a ha).ne
  simp [none_before]

/-- In ascending order the first of the least is at the front. -/
theorem head?_sortBy {least : α} (h : FirstGreatest (OrderDual.toDual ∘ key) items least) :
    (sortBy key items).head? = some least := by
  have perm := sortBy_perm key items
  have ascending := sortBy_ascending key items
  have stable := filter_sortBy key items (key least)
  rcases hsorted : sortBy key items with _ | ⟨front, rest⟩
  · rw [hsorted] at perm
    exact absurd h.mem (perm.symm.eq_nil ▸ List.not_mem_nil)
  · rw [hsorted] at perm ascending stable
    have atLeast : key least ≤ key front := h.le front (perm.mem_iff.mp (by simp))
    have atMost : key front ≤ key least := by
      rcases List.mem_cons.mp (perm.mem_iff.mpr h.mem) with rfl | hrest
      · exact le_rfl
      · exact List.rel_of_pairwise_cons ascending hrest
    have first : (items.filter fun a => key a = key least).head? = some least := h.head?_filter
    rw [← stable, List.filter_cons_of_pos (by simpa using le_antisymm atMost atLeast)] at first
    exact first

/-- At the back is an item that is equal to the first of the greatest. -/
theorem getLast?_sortBy (h : FirstGreatest key items best) :
    ∃ last, (sortBy key items).getLast? = some last ∧ key last = key best := by
  have perm := sortBy_perm key items
  have ascending := sortBy_ascending key items
  rcases List.eq_nil_or_concat (sortBy key items) with hsorted | ⟨rest, last, hsorted⟩
  · rw [hsorted] at perm
    exact absurd h.mem (perm.symm.eq_nil ▸ List.not_mem_nil)
  · rw [hsorted, List.concat_eq_append] at perm ascending ⊢
    refine ⟨last, by simp, le_antisymm (h.le last (perm.mem_iff.mp (by simp))) ?_⟩
    rcases List.mem_append.mp (perm.mem_iff.mpr h.mem) with hrest | hlast
    · exact (List.pairwise_append.mp ascending).2.2 best hrest last (by simp)
    · obtain rfl := List.mem_singleton.mp hlast
      exact le_rfl

end

/-! ### Extremes of numbers -/

namespace Builtin

/-- Numbers are compared by what they hold, and the best of them is a number. -/
theorem extreme_numbers (beats : Scalar → Scalar → Bool) (ns : List Number) (n : Number) :
    extreme beats (.number n, .number n) (ns.map fun n => (.number n, .number n)) =
      let best := ns.foldl (fun best m => if beats (.number m) (.number best) then m else best) n
      (.number best, .number best) := by
  induction ns generalizing n with
  | nil => rfl
  | cons m ns ih =>
    rw [List.map_cons, extreme, List.foldl_cons, ← extreme, List.foldl_cons]
    by_cases h : beats (.number m) (.number n) = true
    · simp only [h, if_true]
      exact ih m
    · simp only [h, Bool.false_eq_true, if_false]
      exact ih n

/-- What beats everything by a key is the first of the greatest by this key. -/
theorem extremeOf_firstGreatest {β : Type} [LinearOrder β] {key : Number → β} (f : Builtin)
    {beats : Scalar → Scalar → Bool} {args : List Value} {ns : List Number}
    (hargs : flatten args = ns.map .number) (hne : ns ≠ [])
    (hbeats : ∀ m ∈ ns, ∀ n ∈ ns, beats (.number m) (.number n) = decide (key n < key m)) :
    ∃ best, extremeOf f beats args = .ok (.number best) ∧ FirstGreatest key ns best := by
  obtain ⟨n, ns, rfl⟩ := List.exists_cons_of_ne_nil hne
  refine ⟨ns.foldl (fun best m => if beats (.number m) (.number best) then m else best) n, ?_, ?_⟩
  · rw [extremeOf, hargs, keyed_numbers]
    exact congrArg (fun p : Value × Scalar => Except.ok p.1) (extreme_numbers beats ns n)
  · have alone : FirstGreatest key [n] n := ⟨[], [], rfl, by simp, by simp⟩
    exact alone.foldl (fun m n => beats (.number m) (.number n)) hbeats

variable {args : List Value} {ns : List Number}

theorem max_firstGreatest (hargs : flatten args = ns.map .number) (hne : ns ≠ [])
    (h : ∀ n ∈ ns, n ≠ .real .nan) :
    ∃ n, max.apply args = .ok (.number n) ∧ FirstGreatest Number.value ns n := by
  refine extremeOf_firstGreatest max hargs hne ?_
  intro m hm n hn
  rw [Bool.eq_iff_iff, decide_eq_true_iff]
  exact Number.lt_iff (h n hn) (h m hm)

theorem min_firstLeast (hargs : flatten args = ns.map .number) (hne : ns ≠ [])
    (h : ∀ n ∈ ns, n ≠ .real .nan) :
    ∃ n, min.apply args = .ok (.number n) ∧
      FirstGreatest (OrderDual.toDual ∘ Number.value) ns n := by
  refine extremeOf_firstGreatest min hargs hne ?_
  intro m hm n hn
  rw [Bool.eq_iff_iff, decide_eq_true_iff]
  exact Number.lt_iff (h m hm) (h n hn)

/-- A list of the items of lists has these for its items. -/
theorem flatten_list_flatten (args : List Value) : flatten [.list (flatten args)] = flatten args :=
  List.append_nil _

theorem sum_regroup (args : List Value) : sum.apply args = sum.apply [.list (flatten args)] := by
  rw [apply, apply, sumOf, sumOf, flatten_list_flatten]

theorem extremeOf_regroup (f : Builtin) (beats : Scalar → Scalar → Bool) (args : List Value) :
    extremeOf f beats args = extremeOf f beats [.list (flatten args)] := by
  rw [extremeOf, extremeOf, flatten_list_flatten]

end Builtin

/-- The functions `max`, `min` and `sort` agree on numbers, if there are any among the arguments and
    NaN is not. Then `max` gives the first of them that is not below any, and `min` the first that is not
    above any, by exact value and each of its own kind. The least is what the numbers begin with when
    they are sorted, and they end with one that is equal to the greatest. Whatever the arguments are,
    `sum`, `max` and `min` come to the same if the items of lists among them and the others are put
    into one list, whether this is a value or an error. -/
theorem extremes_agree_with_sort :
    (∀ (args : List Value) (ns : List Number), Builtin.flatten args = ns.map .number → ns ≠ [] →
      (∀ n ∈ ns, n ≠ .real .nan) → ∃ (greatest least : Number) (ms : List Number),
        Builtin.max.apply args = .ok (.number greatest) ∧
        (ns.find? fun n => ∀ m ∈ ns, m.value ≤ n.value) = some greatest ∧
        Builtin.min.apply args = .ok (.number least) ∧
        (ns.find? fun n => ∀ m ∈ ns, n.value ≤ m.value) = some least ∧
        Builtin.sort.apply [.list (Builtin.flatten args)] = .ok (.list (ms.map .number)) ∧
        ms.head? = some least ∧
        ∃ last, ms.getLast? = some last ∧ last.value = greatest.value) ∧
    (∀ f ∈ [Builtin.sum, Builtin.max, Builtin.min], ∀ args : List Value,
      f.apply args = f.apply [.list (Builtin.flatten args)]) := by
  refine ⟨?_, ?_⟩
  · intro args ns hargs hne h
    obtain ⟨greatest, hmax, isGreatest⟩ := Builtin.max_firstGreatest hargs hne h
    obtain ⟨least, hmin, isLeast⟩ := Builtin.min_firstLeast hargs hne h
    refine ⟨greatest, least, sortBy Number.value ns, hmax, isGreatest.find?_eq, hmin,
      isLeast.find?_eq, ?_, head?_sortBy isLeast, getLast?_sortBy isGreatest⟩
    rw [hargs]
    exact Builtin.sort_ascending h
  · intro f hf args
    simp only [List.mem_cons, List.not_mem_nil, or_false] at hf
    rcases hf with rfl | rfl | rfl
    · exact Builtin.sum_regroup args
    · exact Builtin.extremeOf_regroup Builtin.max _ args
    · exact Builtin.extremeOf_regroup Builtin.min _ args

/-- Equal numbers of both kinds, in and out of a list: of the two that are greatest the earlier one is
    given, and so is the earlier one of the two that are least. -/
theorem earlier_extremes_given :
    let one : Number := .real (Binary64.ofInt 1)
    let two : Number := .real (Binary64.ofInt 2)
    let ns : List Number := [two, .int 2, .int 1, one]
    let args : List Value := [.number two, .list [.int 2, .int 1], .number one]
    Builtin.flatten args = ns.map .number ∧ ns ≠ [] ∧ (∀ n ∈ ns, n ≠ .real .nan) ∧
      Builtin.max.apply args = .ok (.number two) ∧ Builtin.min.apply args = .ok (.int 1) ∧
      ∃ ms : List Number,
        Builtin.sort.apply [.list (Builtin.flatten args)] = .ok (.list (ms.map .number)) ∧
        ms.head? = some (.int 1) ∧ ∃ last, ms.getLast? = some last ∧ last.value = two.value := by
  intro one two ns args
  have noNan : ∀ n ∈ ns, n ≠ .real .nan := by decide
  obtain ⟨greatest, least, ms, hmax, -, hmin, -, hsort, hhead, hlast⟩ :=
    extremes_agree_with_sort.1 args ns rfl (List.cons_ne_nil _ _) noNan
  have max : Builtin.max.apply args = .ok (.number two) := rfl
  have min : Builtin.min.apply args = .ok (.int 1) := rfl
  obtain rfl : greatest = two := Value.number.inj (Except.ok.inj (hmax.symm.trans max))
  obtain rfl : least = .int 1 := Value.number.inj (Except.ok.inj (hmin.symm.trans min))
  exact ⟨rfl, List.cons_ne_nil _ _, noNan, max, min, ms, hsort, hhead, hlast⟩

end DiceNotation
