import DiceNotation.Proofs.Fragment
import DiceNotation.Proofs.Totals

/-!
The errors that evaluation can raise, and the operations on values that raise them.

`Raised` is the full list: no defect is among them, the identifiers they quote are names of the
fragment, and faults of arithmetic are those that are expected. A fragment is closed if its numbers
stay among themselves up to these faults (`Fragment.Closed`). Then operators and built-in functions
give values of the fragment or raise an error of the list (`reduce_in`, `apply_in`).
-/

namespace DiceNotation

open Outcome

/-- The failures of evaluations, by the names and the faults that may take part. -/
inductive Raised (name : String → Prop) (fault : Form → Fault → Prop) : Failure → Prop
  | fault {op : Form} {f : Fault} : fault op f → Raised name fault (.error (f.toError op))
  | notNumber (found : ValueType) : Raised name fault (.error (.typeMismatch "number" found))
  | notType (expected found : ValueType) :
    Raised name fault (.error (.typeMismatch expected found))
  | missing (op : InfixOp) (side : Side) : Raised name fault (.error (.missingOperand op side))
  | noOperands (op : InfixOp) : Raised name fault (.error (.noOperands op))
  | negative (n : Int) : Raised name fault (.error (.negativeArgument (.int n)))
  | tooManyDice (limit : Int) : Raised name fault (.error (.invalidOperation InfixOp.dice
      ("cannot roll more than " ++ toString limit ++ " dice")))
  | undefined {x : String} : name x → Raised name fault (.error (.undefinedIdentifier x))
  | arity {x : String} (expected found : Nat) :
    name x → Raised name fault (.error (.arityMismatch x (.int expected) (.int found)))
  | tooDeep {x : String} (limit : Int) : name x → Raised name fault
      (.error (.invalidOperation x ("call depth exceeded " ++ toString limit)))
  | builtinArity (b : Builtin) (found : Nat) :
    Raised name fault (.error (.arityMismatch b.name (.int 1) (.int found)))
  | noValues (b : Builtin) :
    Raised name fault (.error (.invalidOperation b.name "no values given"))
  | range : Raised name fault (.error (.unimplemented "range"))
  | filter : Raised name fault (.error (.unimplemented "filter"))
  | notExpr (kind : Kind) :
    Raised name fault (.error (.malformed (kind.name ++ " is not an expression")))

/-- No defect is among the failures of evaluations. -/
theorem Raised.isError {name : String → Prop} {fault : Form → Fault → Prop} {f : Failure}
    (h : Raised name fault f) : ∃ e, f = .error e := by
  cases h <;> exact ⟨_, rfl⟩

/-! ### Closed fragments -/

/-- A number that satisfies `N`, or one of the expected faults. -/
def Number.Settles (N : Number → Prop) (fault : Fault → Prop) : Except Fault Number → Prop
  | .ok n => N n
  | .error f => fault f

namespace Fragment

/-- An operation keeps the numbers of the fragment, up to the expected faults. -/
def Binary (F : Fragment) (fault : Fault → Prop) (f : Number → Number → Except Fault Number) :
    Prop :=
  ∀ m n, F.number m → F.number n → Number.Settles F.number fault (f m n)

/-- What an operator does to numbers keeps those of the fragment. -/
def Keeps (F : Fragment) (fault : Form → Fault → Prop) : InfixOp → Prop
  | .dice => True
  | .plus => F.Binary (fault InfixOp.plus) Number.add
  | .minus => F.Binary (fault InfixOp.minus) Number.sub ∧
      ∀ m, F.number m → Number.Settles F.number (fault InfixOp.minus) m.neg
  | .mul => F.Binary (fault InfixOp.mul) Number.mul
  | .div => F.Binary (fault InfixOp.div) Number.div
  | .pow => F.Binary (fault InfixOp.pow) Number.pow

/-- Whatever takes a sum: an operator with a list for an operand, or the function `sum`. -/
inductive Sums : Form → Prop
  | operator (o : InfixOp) : Sums o
  | function : Sums Builtin.sum.name

/-- Integers are in the fragment, and sums, magnitudes and its operators keep its numbers. -/
structure Closed (F : Fragment) (fault : Form → Fault → Prop) : Prop where
  int : ∀ n : Int, F.number (.int n)
  abs : ∀ m, F.number m → F.number m.abs
  total : ∀ op, Sums op → ∀ ns : List Number, (∀ n ∈ ns, F.number n) →
    Number.Settles F.number (fault op) (Number.total ns)
  keeps : ∀ o, F.operator o → F.Keeps fault o

end Fragment

variable {F : Fragment} {fault : Form → Fault → Prop}

/-! ### Scalars -/

/-- A number of the fragment. -/
def Scalar.In (F : Fragment) (c : Scalar) : Prop := ∃ n, c = .number n ∧ F.number n

theorem Scalar.exists_numbers : ∀ {cs : List Scalar}, (∀ c ∈ cs, c.In F) →
    ∃ ns : List Number, cs = ns.map .number ∧ ∀ n ∈ ns, F.number n
  | [], _ => ⟨[], rfl, by simp⟩
  | c :: cs, h => by
    obtain ⟨⟨n, rfl, hn⟩, hcs⟩ := List.forall_mem_cons.mp h
    obtain ⟨ns, rfl, hns⟩ := Scalar.exists_numbers hcs
    exact ⟨n :: ns, rfl, List.forall_mem_cons.mpr ⟨hn, hns⟩⟩

/-- A division by zero is reported where numbers have that fault, and nowhere else. -/
theorem settleFor_divisionByZero_iff {op : Form} {x : Except Fault Number} :
    (settleFor op x).map Value.number = fail (.divisionByZero op) ↔ x = .error .zeroDivision := by
  cases x with
  | ok n => exact ⟨fun h => (nomatch h), fun h => (nomatch h)⟩
  | error f =>
    cases f with
    | zeroDivision => exact ⟨fun _ => rfl, fun _ => rfl⟩
    | tooLarge => exact ⟨fun h => (nomatch h), fun h => (nomatch h)⟩
    | notReal => exact ⟨fun h => (nomatch h), fun h => (nomatch h)⟩

theorem settleFor_in {op : Form} {x : Except Fault Number}
    (h : Number.Settles F.number (fault op) x) :
    Ensures (Raised F.name fault) F.number (settleFor op x) := by
  cases x with
  | ok n => exact h
  | error f => exact .fault h

theorem Scalar.combine_in {op : InfixOp} {f : Number → Number → Except Fault Number}
    (hf : F.Binary (fault op) f) {a b : Scalar} (ha : a.In F) (hb : b.In F) :
    Ensures (Raised F.name fault) (Scalar.In F) (Scalar.combine op f a b) := by
  obtain ⟨m, rfl, hm⟩ := ha
  obtain ⟨n, rfl, hn⟩ := hb
  exact (settleFor_in (hf m n hm hn)).bind fun k hk => ⟨k, rfl, hk⟩

theorem Scalar.add_in (hf : F.Binary (fault InfixOp.plus) Number.add) {a b : Scalar}
    (ha : a.In F) (hb : b.In F) : Ensures (Raised F.name fault) (Scalar.In F) (a.add b) := by
  have h := Scalar.combine_in hf ha hb
  obtain ⟨m, rfl, -⟩ := ha
  exact h

theorem Scalar.neg_in
    (hf : ∀ m, F.number m → Number.Settles F.number (fault InfixOp.minus) m.neg) {c : Scalar}
    (hc : c.In F) : Ensures (Raised F.name fault) (Scalar.In F) c.neg := by
  obtain ⟨m, rfl, hm⟩ := hc
  exact (settleFor_in (hf m hm)).bind fun n hn => ⟨n, rfl, hn⟩

theorem Scalar.mul_in (hf : F.Binary (fault InfixOp.mul) Number.mul) {a b : Scalar}
    (ha : a.In F) (hb : b.In F) : Ensures (Raised F.name fault) (Scalar.In F) (a.mul b) := by
  have h := Scalar.combine_in hf ha hb
  obtain ⟨m, rfl, -⟩ := ha
  obtain ⟨n, rfl, -⟩ := hb
  exact h

theorem Scalar.total_in (hF : F.Closed fault) {op : Form} (hop : Fragment.Sums op)
    {cs : List Scalar} (h : ∀ c ∈ cs, c.In F) :
    Ensures (Raised F.name fault) (Scalar.In F) (Scalar.total op cs) := by
  obtain ⟨ns, rfl, hns⟩ := Scalar.exists_numbers h
  rw [Scalar.total_numbers]
  exact (settleFor_in (hF.total op hop ns hns)).map fun n hn => ⟨n, rfl, hn⟩

/-! ### Operators -/

namespace Value

theorem content_in {v : Value} (h : v.In F) :
    Ensures (Raised F.name fault) (Scalar.In F) v.content := by
  cases v with
  | number n => exact ⟨n, rfl, h⟩
  | text s => exact Raised.notNumber .text
  | list vs => exact Raised.notNumber .list
  | stray s => exact h.elim

theorem operand_in (hF : F.Closed fault) {op : InfixOp} {v : Value} (h : v.In F) :
    Ensures (Raised F.name fault) (Scalar.In F) (v.operand op) := by
  cases v with
  | list vs =>
    rw [in_list_iff] at h
    refine (ensures_mapM fun v hv => content_in (h v hv)).bind fun cs hcs => ?_
    exact Scalar.total_in hF (.operator op) hcs
  | number n => exact content_in h
  | text s => exact content_in h
  | stray s => exact content_in h

theorem numberOf_in {c : Scalar} (h : c.In F) : (numberOf c).In F := by
  obtain ⟨n, rfl, hn⟩ := h
  exact hn

theorem binary_in (hF : F.Closed fault) (op : InfixOp) {f : Scalar → Scalar → Outcome Scalar}
    (hf : ∀ {a b : Scalar}, a.In F → b.In F →
      Ensures (Raised F.name fault) (Scalar.In F) (f a b)) {l r : Value}
    (hl : l.In F) (hr : r.In F) :
    Ensures (Raised F.name fault) (Value.In F) (binary op f l r) := by
  refine (operand_in hF hl).bind fun a ha => ?_
  refine (operand_in hF hr).bind fun b hb => ?_
  exact (hf ha hb).bind fun c hc => numberOf_in hc

theorem content_numbers (ns : List Number) :
    (ns.map number).mapM content = .ok (ns.map .number) := by
  induction ns with
  | nil => rfl
  | cons n ns ih =>
    rw [List.map_cons, List.mapM_cons, ih]
    rfl

/-- A list of numbers stands for their total. -/
theorem operand_numbers (op : InfixOp) (ns : List Number) :
    (list (ns.map number)).operand op = (settleFor op (Number.total ns)).map .number := by
  rw [operand, content_numbers]
  exact Scalar.total_numbers op ns

/-- An operation on operands that stand for numbers is the one on the numbers. -/
theorem binary_numbers {op : InfixOp} {f : Number → Number → Except Fault Number} {l r : Value}
    {m n : Number} (hl : l.operand op = .ok (.number m)) (hr : r.operand op = .ok (.number n)) :
    binary op (Scalar.combine op f) l r = (settleFor op (f m n)).map number := by
  rw [binary, hl, hr]
  show (settleFor op (f m n) >>= fun n => _) >>= _ = _
  cases settleFor op (f m n) <;> rfl

theorem add_in (hF : F.Closed fault) (ho : F.operator .plus) {l r : Value} (hl : l.In F)
    (hr : r.In F) : Ensures (Raised F.name fault) (Value.In F) (add l r) := by
  have h := binary_in hF .plus (Scalar.add_in (hF.keeps _ ho)) hl hr
  cases l with
  | number m => exact h
  | text s =>
    cases r with
    | text t => trivial
    | stray t => exact hr.elim
    | number n => exact h
    | list ws => exact h
  | list vs =>
    cases r with
    | list ws =>
      rw [in_list_iff] at hl hr
      exact in_list_iff.mpr (List.forall_mem_append.mpr ⟨hl, hr⟩)
    | stray t => exact hr.elim
    | number n => exact h
    | text t => exact h
  | stray s => exact hl.elim

theorem neg_in (hF : F.Closed fault) (ho : F.operator .minus) {v : Value} (hv : v.In F) :
    Ensures (Raised F.name fault) (Value.In F) v.neg := by
  refine (operand_in hF hv).bind fun c hc => ?_
  exact (Scalar.neg_in (hF.keeps _ ho).2 hc).bind fun c hc => numberOf_in hc

end Value

theorem strict_in {o : InfixOp} {f : Value → Value → Outcome Value}
    (hf : ∀ {l r : Value}, l.In F → r.In F → Ensures (Raised F.name fault) (Value.In F) (f l r))
    {l r : Option Value} (hl : ∀ v ∈ l, v.In F) (hr : ∀ v ∈ r, v.In F) :
    Ensures (Raised F.name fault) (Value.In F) (strict o f l r) := by
  cases l with
  | none =>
    cases r with
    | none => exact Raised.noOperands o
    | some r => exact Raised.missing o .left
  | some l =>
    cases r with
    | none => exact Raised.missing o .right
    | some r => exact hf (hl l rfl) (hr r rfl)

/-- An operator of the fragment that is no dice operator gives values of the fragment. -/
theorem reduce_in (hF : F.Closed fault) {o : InfixOp} (ho : F.operator o) (hd : o ≠ .dice)
    {l r : Option Value} (hl : ∀ v ∈ l, v.In F) (hr : ∀ v ∈ r, v.In F) :
    Ensures (Raised F.name fault) (Value.In F) (reduce o l r) := by
  have given : ∀ {w : Option Value}, (∀ v ∈ w, v.In F) → w.bind Value.given? = w
    | none, _ => rfl
    | some v, h => (h v rfl).given
  have keeps := hF.keeps o ho
  unfold reduce
  rw [given hl, given hr]
  cases o with
  | dice => exact absurd rfl hd
  | plus =>
    cases r with
    | none => exact Raised.missing _ _
    | some r =>
      cases l with
      | none => exact hr r rfl
      | some l => exact Value.add_in hF ho (hl l rfl) (hr r rfl)
  | minus =>
    cases r with
    | none => exact Raised.missing _ _
    | some r =>
      cases l with
      | none => exact Value.neg_in hF ho (hr r rfl)
      | some l => exact Value.binary_in hF _ (Scalar.combine_in keeps.1) (hl l rfl) (hr r rfl)
  | mul => exact strict_in (Value.binary_in hF _ (Scalar.mul_in keeps)) hl hr
  | div => exact strict_in (Value.binary_in hF _ (Scalar.combine_in keeps)) hl hr
  | pow => exact strict_in (Value.binary_in hF _ (Scalar.combine_in keeps)) hl hr

/-! ### Built-in functions -/

namespace Builtin

/-- The items are arguments, or items of the lists among them. -/
theorem mem_flatten {v : Value} {args : List Value} (h : v ∈ flatten args) :
    v ∈ args ∨ ∃ vs, .list vs ∈ args ∧ v ∈ vs := by
  obtain ⟨w, hw, hvw⟩ := List.mem_flatMap.mp h
  cases w with
  | list vs => exact .inr ⟨vs, hw, hvw⟩
  | _ => exact .inl (List.mem_singleton.mp hvw ▸ hw)

theorem flatten_in {args : List Value} (h : ∀ v ∈ args, v.In F) : ∀ v ∈ flatten args, v.In F := by
  intro v hv
  rcases mem_flatten hv with hv | ⟨vs, hvs, hv⟩
  · exact h v hv
  · exact Value.in_list_iff.mp (h _ hvs) v hv

/-- Numbers can always be compared. -/
theorem keyed_in {vs : List Value} (h : ∀ v ∈ vs, v.In F) :
    Ensures (Raised F.name fault) (fun items => ∀ p ∈ items, p.1.In F) (keyed vs) := by
  have items : Ensures (Raised F.name fault) (fun items : List (Value × Scalar) =>
      ∀ p ∈ items, p.1.In F ∧ p.2.In F) (vs.mapM fun v => do return (v, ← v.content)) :=
    ensures_mapM fun v hv => (Value.content_in (h v hv)).bind fun c hc => ⟨h v hv, hc⟩
  refine items.bind fun items hitems => ?_
  have comparable : Scalar.comparable (items.map (·.2)) = true := by
    have : ((items.map (·.2)).all (·.number?.isSome)) = true := by
      rw [List.all_map, List.all_eq_true]
      intro p hp
      obtain ⟨n, hn, -⟩ := (hitems p hp).2
      simp [hn, Scalar.number?]
    simp [Scalar.comparable, this]
  rw [if_pos comparable]
  exact fun p hp => (hitems p hp).1

theorem extreme_mem (beats : Scalar → Scalar → Bool) : ∀ (rest : List (Value × Scalar)) first,
    extreme beats first rest ∈ first :: rest
  | [], first => List.mem_singleton.mpr rfl
  | x :: rest, first => by
    rw [extreme, List.foldl_cons]
    split
    · exact List.mem_cons_of_mem _ (extreme_mem beats rest x)
    · rcases List.mem_cons.mp (extreme_mem beats rest first) with h | h
      · exact List.mem_cons.mpr (.inl h)
      · exact List.mem_cons_of_mem _ (List.mem_cons_of_mem _ h)

theorem extremeOf_in (b : Builtin) (beats : Scalar → Scalar → Bool) {args : List Value}
    (h : ∀ v ∈ args, v.In F) :
    Ensures (Raised F.name fault) (Value.In F) (extremeOf b beats args) := by
  refine (keyed_in (flatten_in h)).bind fun items hitems => ?_
  cases items with
  | nil => exact Raised.noValues b
  | cons x xs => exact hitems _ (extreme_mem beats xs x)

theorem sumOf_in (hF : F.Closed fault) {args : List Value} (h : ∀ v ∈ args, v.In F) :
    Ensures (Raised F.name fault) (Value.In F) (sumOf args) := by
  rw [sumOf_eq]
  refine (ensures_mapM fun v hv => Value.content_in (flatten_in h v hv)).bind fun cs hcs => ?_
  exact (Scalar.total_in hF .function hcs).bind fun c hc => Value.numberOf_in hc

theorem lenOf_in (hF : F.Closed fault) {v : Value} (h : v.In F) :
    Ensures (Raised F.name fault) (Value.In F) (lenOf v) := by
  cases v with
  | list vs => exact hF.int _
  | text s => exact hF.int _
  | number n => cases n <;> exact Raised.notType .list _
  | stray s => exact h.elim

theorem absOf_in (hF : F.Closed fault) {v : Value} (h : v.In F) :
    Ensures (Raised F.name fault) (Value.In F) (absOf v) := by
  refine (Value.content_in h).bind ?_
  rintro _ ⟨m, rfl, hm⟩
  exact hF.abs m hm

theorem sortOf_in {v : Value} (h : v.In F) :
    Ensures (Raised F.name fault) (Value.In F) (sortOf v) := by
  cases v with
  | list vs =>
    refine (keyed_in (Value.in_list_iff.mp h)).bind fun items hitems => ?_
    refine Value.in_list_iff.mpr fun v hv => ?_
    obtain ⟨p, hp, rfl⟩ := List.mem_map.mp hv
    exact hitems p (List.mem_mergeSort.mp hp)
  | text s => exact Raised.notType .list .text
  | number n => cases n <;> exact Raised.notType .list _
  | stray s => exact h.elim

theorem expectOne_in (b : Builtin) {args : List Value} (h : ∀ v ∈ args, v.In F) :
    Ensures (Raised F.name fault) (Value.In F) (expectOne b args) := by
  unfold expectOne
  split
  · exact h _ (List.mem_singleton.mpr rfl)
  · exact Raised.builtinArity b _

/-- Built-in functions give values of the fragment for such arguments. -/
theorem apply_in (hF : F.Closed fault) (b : Builtin) {args : List Value}
    (h : ∀ v ∈ args, v.In F) : Ensures (Raised F.name fault) (Value.In F) (b.apply args) := by
  cases b with
  | sum => exact sumOf_in hF h
  | len => exact (expectOne_in .len h).bind fun v hv => lenOf_in hF hv
  | max => exact extremeOf_in .max _ h
  | min => exact extremeOf_in .min _ h
  | abs => exact (expectOne_in .abs h).bind fun v hv => absOf_in hF hv
  | sort => exact (expectOne_in .sort h).bind fun v hv => sortOf_in hv

end Builtin

end DiceNotation
