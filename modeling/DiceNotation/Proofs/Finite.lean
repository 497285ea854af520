import DiceNotation.Proofs.Raised

/-!
Finite numbers stay finite.

A value is finite if neither an infinity nor NaN occurs in it, at whatever depth, nor in a stray in
its place (`Value.Finite`). Every operation on numbers gives a finite one or has a fault, whatever its
operands are (`Number.add_finite` and the lemmas after it), and so do the operations on values and the
sum that is built in. All else passes numbers on as they are, but for magnitudes; so operators and
functions built in give finite values for finite ones (`reduce_finite`, `apply_finite`).
-/

namespace DiceNotation

open Outcome

/-! ### Finite forms -/

/-- A real occurs in a form, at whatever depth. -/
inductive Form.Holds (x : Binary64) : Form → Prop
  | real : Holds x (.real x)
  | sequence {f : Form} {fs : List Form} : f ∈ fs → Holds x f → Holds x (.sequence fs)
  | tuple {f : Form} {fs : List Form} : f ∈ fs → Holds x f → Holds x (.tuple fs)
  | field {k : RecordKind} {f : Form} {fs : List Form} :
    f ∈ fs → Holds x f → Holds x (.record k fs)

/-- No infinity and no NaN occurs in the form. -/
def Form.Finite (f : Form) : Prop := ∀ x, f.Holds x → x.isFinite = true

/-- The scalar is neither an infinity nor NaN. -/
def Scalar.Finite (c : Scalar) : Prop := c.toForm.Finite

/-- No infinity and no NaN occurs in the value, or in what stands in its place. -/
def Value.Finite (v : Value) : Prop := v.toForm.Finite

theorem Form.finite_tuple_iff {fs : List Form} : (tuple fs).Finite ↔ ∀ f ∈ fs, f.Finite := by
  refine ⟨fun h f hf x hx => h x (.tuple hf hx), fun h x hx => ?_⟩
  cases hx with
  | tuple hf hx => exact h _ hf x hx

/-- The only field of a record. -/
theorem Form.finite_field_iff {k : RecordKind} {f : Form} : (record k [f]).Finite ↔ f.Finite := by
  refine ⟨fun h x hx => h x (.field (List.mem_singleton.mpr rfl) hx), fun h x hx => ?_⟩
  cases hx with
  | field hf hx =>
    obtain rfl := List.mem_singleton.mp hf
    exact h x hx

theorem Scalar.finite_number_iff {n : Number} : (number n).Finite ↔ n.isFinite = true := by
  cases n with
  | int n => exact ⟨fun _ => rfl, fun _ x hx => nomatch hx⟩
  | real x =>
    refine ⟨fun h => h x .real, fun h y hy => ?_⟩
    cases hy
    exact h

theorem Scalar.finite_text (s : String) : (text s).Finite := fun _ hx => nomatch hx

namespace Value

theorem finite_list_iff {vs : List Value} : (list vs).Finite ↔ ∀ v ∈ vs, v.Finite := by
  rw [Finite, toForm_list, Form.finite_field_iff, Form.finite_tuple_iff, List.forall_mem_map]
  rfl

theorem finite_number_iff {n : Number} : (number n).Finite ↔ n.isFinite = true := by
  rw [Finite, toForm, Form.finite_field_iff]
  exact Scalar.finite_number_iff

theorem finite_int (n : Int) : (int n).Finite := finite_number_iff.mpr rfl

theorem numberOf_finite {c : Scalar} (h : c.Finite) : (numberOf c).Finite := by
  have hform : (numberOf c).toForm = .record .number [c.toForm] := by cases c <;> rfl
  rw [Finite, hform]
  exact Form.finite_field_iff.mpr h

theorem textOf_finite {c : Scalar} (h : c.Finite) : (textOf c).Finite := by
  have hform : (textOf c).toForm = .record .text [c.toForm] := by cases c <;> rfl
  rw [Finite, hform]
  exact Form.finite_field_iff.mpr h

/-- What a number holds is finite, whether it is a number or a stray. -/
theorem content_finite {v : Value} (h : v.Finite) : Gives Scalar.Finite v.content := by
  cases v with
  | number n => exact Scalar.finite_number_iff.mpr (finite_number_iff.mp h)
  | text s => trivial
  | list vs => trivial
  | stray s =>
    cases s with
    | number c => exact Form.finite_field_iff.mp h
    | text c => trivial
    | foreign f => exact gives_last _ fun _ => trivial

theorem given?_finite {v w : Value} (h : v.Finite) (hw : v.given? = some w) : w.Finite := by
  unfold given? at hw
  split at hw
  · cases hw
  · exact Option.some.inj hw ▸ h

end Value

/-! ### Operations on numbers -/

namespace Number

/-- A finite number, or any fault. -/
def EndsFinite : Except Fault Number → Prop
  | .ok n => n.isFinite = true
  | .error _ => True

theorem EndsFinite.bind {α : Type} (x : Except Fault α) {f : α → Except Fault Number}
    (h : ∀ a, EndsFinite (f a)) : EndsFinite (x >>= f) := by
  cases x with
  | ok a => exact h a
  | error f => trivial

theorem settle_finite (x : Binary64) : EndsFinite (settle x) := by
  unfold settle
  by_cases h : x.isFinite = true
  · rw [if_pos h]
    exact h
  · rw [if_neg h]
    trivial

theorem checked_finite (n : Number) : EndsFinite n.checked := by
  cases n with
  | int n => rfl
  | real x => exact settle_finite x

/-- Operations tell apart two integers, a real on the left and a real on the right only. -/
theorem EndsFinite.of_operands {f : Number → Number → Except Fault Number}
    (ints : ∀ m n : Int, EndsFinite (f (int m) (int n)))
    (left : ∀ x n, EndsFinite (f (real x) n))
    (right : ∀ (m : Int) y, EndsFinite (f (int m) (real y))) (m n : Number) :
    EndsFinite (f m n) := by
  cases m with
  | real x => exact left x n
  | int m =>
    cases n with
    | int n => exact ints m n
    | real y => exact right m y

/-- An operation that is taken in reals is settled at its end. -/
theorem inReals_finite (f : Binary64 → Binary64 → Binary64) (m n : Number) :
    EndsFinite (do settle (f (← m.toReal) (← n.toReal))) :=
  .bind _ fun _ => .bind _ fun _ => settle_finite _

theorem add_finite (m n : Number) : EndsFinite (m.add n) := .bind _ checked_finite

theorem sub_finite (m n : Number) : EndsFinite (m.sub n) := by
  refine EndsFinite.of_operands (fun m n => ?_) (fun x n => ?_) (fun m y => ?_) m n
  · rfl
  · exact inReals_finite Binary64.sub (real x) n
  · exact inReals_finite Binary64.sub (int m) (real y)

theorem neg_finite (n : Number) : EndsFinite n.neg := by
  cases n with
  | int n => rfl
  | real x => exact settle_finite x.neg

theorem mul_finite (m n : Number) : EndsFinite (m.mul n) := by
  refine EndsFinite.of_operands (fun m n => ?_) (fun x n => ?_) (fun m y => ?_) m n
  · rfl
  · exact inReals_finite Binary64.mul (real x) n
  · exact inReals_finite Binary64.mul (int m) (real y)

theorem divInt_finite (a b : Int) : EndsFinite (divInt a b) := by
  unfold divInt
  split
  · trivial
  split
  · rfl
  · exact settle_finite _

theorem div_finite (m n : Number) : EndsFinite (m.div n) := by
  have inReals : ∀ a b : Number, EndsFinite (do
      let x ← a.toReal
      let y ← b.toReal
      if y.isZero then .error .zeroDivision else settle (x.div y)) := by
    refine fun a b => .bind _ fun x => .bind _ fun y => ?_
    split
    · trivial
    · exact settle_finite _
  refine EndsFinite.of_operands divInt_finite (fun x n => ?_) (fun m y => ?_) m n
  · exact inReals (real x) n
  · exact inReals (int m) (real y)

theorem powNat_finite (base : Int) (exponent : Nat) : EndsFinite (powNat base exponent) := by
  unfold powNat
  split
  · rfl
  split
  · rfl
  split
  · trivial
  · rfl

theorem powReal_finite (general : Binary64.PowerFunction) (x y : Binary64) :
    EndsFinite (powReal general x y) := by
  unfold powReal
  cases x.power general y with
  | ok r => exact settle_finite r
  | error f => cases f <;> trivial

theorem pow_finite (m n : Number) : EndsFinite (m.pow n) := by
  unfold pow powWith
  split
  · exact powNat_finite _ _
  · exact .bind _ fun _ => .bind _ fun _ => powReal_finite _ _ _

/-- A magnitude is finite where the number is. -/
theorem abs_finite {n : Number} (h : n.isFinite = true) : n.abs.isFinite = true := by
  cases n with
  | int n => rfl
  | real x =>
    cases x with
    | nan => cases h
    | infinite s => cases h
    | finite x => rfl

end Number

/-! ### Operations on scalars -/

theorem settleFor_finite (op : Form) {x : Except Fault Number} (h : Number.EndsFinite x) :
    Gives Scalar.Finite (do return .number (← settleFor op x)) := by
  cases x with
  | error f => trivial
  | ok n => exact Scalar.finite_number_iff.mpr h

namespace Scalar

theorem combine_finite (op : Form) {f : Number → Number → Except Fault Number}
    (hf : ∀ m n, Number.EndsFinite (f m n)) (a b : Scalar) : Gives Finite (combine op f a b) := by
  refine gives_last _ fun m => gives_last _ fun n => ?_
  exact settleFor_finite op (hf m n)

theorem add_finite (a b : Scalar) : Gives Finite (a.add b) := by
  unfold add
  split
  · exact finite_text _
  · exact combine_finite _ Number.add_finite a b

theorem neg_finite (c : Scalar) : Gives Finite c.neg :=
  gives_last _ fun n => settleFor_finite _ n.neg_finite

theorem repeatedBy_finite (s : String) (c : Scalar) : Gives Finite (repeatedBy s c) := by
  unfold repeatedBy
  split
  · exact gives_last _ fun t => finite_text t
  · trivial

theorem mul_finite (a b : Scalar) : Gives Finite (a.mul b) := by
  unfold mul
  split
  · exact repeatedBy_finite _ _
  · exact repeatedBy_finite _ _
  · exact combine_finite _ Number.mul_finite a b

theorem total_finite (op : Form) (cs : List Scalar) : Gives Finite (total op cs) :=
  gives_last _ fun n => settleFor_finite op n.checked_finite

theorem abs_finite {c : Scalar} (h : c.Finite) : Gives Finite c.abs := by
  cases c with
  | flag b => exact finite_number_iff.mpr rfl
  | number n => exact finite_number_iff.mpr (Number.abs_finite (finite_number_iff.mp h))
  | absent => trivial
  | text s => trivial

end Scalar

/-! ### Operators -/

namespace Value

theorem binary_finite (op : InfixOp) {f : Scalar → Scalar → Outcome Scalar}
    (hf : ∀ a b, Gives Scalar.Finite (f a b)) (l r : Value) : Gives Finite (binary op f l r) := by
  refine gives_last _ fun a => gives_last _ fun b => ?_
  exact (hf a b).bind fun c hc => numberOf_finite hc

/-- A sum is finite whatever the operands are, unless it joins two lists. -/
theorem add_joins (l r : Value) : Gives (fun v => v.Finite ∨
    ∃ vs ws, l = .list vs ∧ r = .list ws ∧ v = .list (vs ++ ws)) (l.add r) := by
  unfold add
  split
  · exact .inr ⟨_, _, rfl, rfl, rfl⟩
  split
  · exact (Scalar.add_finite _ _).bind fun c hc => .inl (textOf_finite hc)
  · exact (binary_finite .plus Scalar.add_finite l r).imp (fun _ => id) fun _ => .inl

theorem add_finite {l r : Value} (hl : l.Finite) (hr : r.Finite) : Gives Finite (l.add r) := by
  refine (add_joins l r).imp (fun _ => id) ?_
  rintro v (hv | ⟨vs, ws, rfl, rfl, rfl⟩)
  · exact hv
  · rw [finite_list_iff] at hl hr ⊢
    exact List.forall_mem_append.mpr ⟨hl, hr⟩

theorem sub_finite (l r : Value) : Gives Finite (l.sub r) :=
  binary_finite .minus (Scalar.combine_finite _ Number.sub_finite) l r

theorem neg_finite (v : Value) : Gives Finite v.neg :=
  gives_last _ fun c => c.neg_finite.bind fun _ hc => numberOf_finite hc

theorem mul_finite (l r : Value) : Gives Finite (l.mul r) :=
  binary_finite .mul Scalar.mul_finite l r

theorem div_finite (l r : Value) : Gives Finite (l.div r) :=
  binary_finite .div (Scalar.combine_finite _ Number.div_finite) l r

theorem pow_finite (l r : Value) : Gives Finite (l.pow r) :=
  binary_finite .pow (Scalar.combine_finite _ Number.pow_finite) l r

end Value

theorem strict_finite (op : InfixOp) {f : Value → Value → Outcome Value}
    (hf : ∀ l r, Gives Value.Finite (f l r)) (l r : Option Value) :
    Gives Value.Finite (strict op f l r) := by
  unfold strict
  split
  · exact hf _ _
  · trivial
  · trivial
  · trivial

/-- An operator gives a finite value for finite operands. -/
theorem reduce_finite (op : InfixOp) {left right : Option Value} (hl : ∀ v ∈ left, v.Finite)
    (hr : ∀ v ∈ right, v.Finite) : Gives Value.Finite (reduce op left right) := by
  have given : ∀ {o : Option Value}, (∀ v ∈ o, v.Finite) → ∀ v ∈ o.bind Value.given?, v.Finite := by
    intro o ho v hv
    obtain ⟨w, hw, hgiven⟩ := Option.bind_eq_some_iff.mp hv
    exact Value.given?_finite (ho w hw) hgiven
  have hl := given hl
  have hr := given hr
  unfold reduce
  generalize left.bind Value.given? = l at hl
  generalize right.bind Value.given? = r at hr
  cases op with
  | dice => trivial
  | plus =>
    rcases r with _ | r
    · cases l <;> trivial
    rcases l with _ | l
    · exact hr r rfl
    · exact Value.add_finite (hl l rfl) (hr r rfl)
  | minus =>
    rcases r with _ | r
    · cases l <;> trivial
    rcases l with _ | l
    · exact r.neg_finite
    · exact l.sub_finite r
  | mul => exact strict_finite .mul Value.mul_finite l r
  | div => exact strict_finite .div Value.div_finite l r
  | pow => exact strict_finite .pow Value.pow_finite l r

/-! ### Functions built in -/

namespace Builtin

theorem flatten_finite {args : List Value} (h : ∀ v ∈ args, v.Finite) :
    ∀ v ∈ flatten args, v.Finite := by
  intro v hv
  rcases mem_flatten hv with hv | ⟨vs, hvs, hv⟩
  · exact h v hv
  · exact Value.finite_list_iff.mp (h _ hvs) v hv

/-- The items that are compared are those that are given. -/
theorem keyed_mem (vs : List Value) : Gives (fun items => ∀ p ∈ items, p.1 ∈ vs) (keyed vs) := by
  have items : Gives (fun items : List (Value × Scalar) => ∀ p ∈ items, p.1 ∈ vs)
      (vs.mapM fun v => do return (v, ← v.content)) :=
    ensures_mapM fun v hv => gives_last _ fun c => hv
  refine items.bind fun items hitems => ?_
  split
  · exact hitems
  · trivial

theorem sumOf_finite (args : List Value) : Gives Value.Finite (sumOf args) := by
  rw [sumOf_eq]
  exact gives_last _ fun cs => (Scalar.total_finite _ cs).bind fun _ hc => Value.numberOf_finite hc

theorem lenOf_finite (v : Value) : Gives Value.Finite (lenOf v) := by
  unfold lenOf
  split
  · exact Value.finite_int _
  · exact Value.finite_int _
  · trivial
  · exact gives_last _ fun _ => trivial

theorem extremeOf_finite (b : Builtin) (beats : Scalar → Scalar → Bool) {args : List Value}
    (h : ∀ v ∈ args, v.Finite) : Gives Value.Finite (extremeOf b beats args) := by
  refine (keyed_mem (flatten args)).bind fun items hitems => ?_
  cases items with
  | nil => trivial
  | cons x xs => exact flatten_finite h _ (hitems _ (extreme_mem beats xs x))

theorem absOf_finite {v : Value} (h : v.Finite) : Gives Value.Finite (absOf v) := by
  refine (Value.content_finite h).bind fun c hc => ?_
  exact (Scalar.abs_finite hc).bind fun _ hc => Value.numberOf_finite hc

theorem sortOf_finite {v : Value} (h : v.Finite) : Gives Value.Finite (sortOf v) := by
  unfold sortOf
  split
  · refine (keyed_mem _).bind fun items hitems => Value.finite_list_iff.mpr fun v hv => ?_
    obtain ⟨p, hp, rfl⟩ := List.mem_map.mp hv
    exact Value.finite_list_iff.mp h _ (hitems p (List.mem_mergeSort.mp hp))
  · exact gives_last _ fun _ => trivial

theorem expectOne_finite (b : Builtin) {args : List Value} (h : ∀ v ∈ args, v.Finite) :
    Gives Value.Finite (expectOne b args) := by
  unfold expectOne
  split
  · exact h _ (List.mem_singleton.mpr rfl)
  · trivial

/-- A function built in gives a finite value for finite arguments. -/
theorem apply_finite (b : Builtin) {args : List Value} (h : ∀ v ∈ args, v.Finite) :
    Gives Value.Finite (b.apply args) := by
  cases b with
  | sum => exact sumOf_finite args
  | len => exact gives_last _ lenOf_finite
  | max => exact extremeOf_finite .max _ h
  | min => exact extremeOf_finite .min _ h
  | abs => exact (expectOne_finite .abs h).bind fun v hv => absOf_finite hv
  | sort => exact (expectOne_finite .sort h).bind fun v hv => sortOf_finite hv

end Builtin

end DiceNotation
