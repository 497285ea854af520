import DiceNotation.Proofs.Evaluation

/-!
How evaluations fail.

Most steps of an evaluation neither roll dice nor call a user function: a name is looked up, an operator
or a function built in is applied, or a node has no rule. `Elementary` lists all ways in which such a
step fails, whatever values it works on. What holds of these, and of what rolls and the two checks of
a call come to, therefore holds of every failure (`FailureRules.eval`).
-/

namespace DiceNotation

open Outcome

/-- The failures of a step that rolls no dice and calls no user function. -/
inductive Elementary : Failure → Prop
  | defect (x : Defect) : Elementary (.defect x)
  | fault (op : Form) (f : Fault) : Elementary (.error (f.toError op))
  | mismatch (expected found : Form) : Elementary (.error (.typeMismatch expected found))
  | missing (op : InfixOp) (side : Side) : Elementary (.error (.missingOperand op side))
  | noOperands (op : InfixOp) : Elementary (.error (.noOperands op))
  | noValues (b : Builtin) : Elementary (.error (.invalidOperation b.name "no values given"))
  | builtinArity (b : Builtin) {found : Int} :
    found ≠ 1 → Elementary (.error (.arityMismatch b.name (.int 1) (.int found)))
  | undefined (x : String) : Elementary (.error (.undefinedIdentifier x))
  | unimplemented (feature : Form) : Elementary (.error (.unimplemented feature))
  | malformed (detail : Form) : Elementary (.error (.malformed detail))

/-- Whatever the result, a failure is an elementary one. -/
abbrev Tame {α : Type} (o : Outcome α) : Prop := Ensures Elementary (fun _ => True) o

variable {α β : Type}

/-! ### Operations on values -/

theorem tame_bind {x : Outcome α} {f : α → Outcome β} (hx : Tame x) (hf : ∀ a, Tame (f a)) :
    Tame (x >>= f) :=
  hx.bind fun a _ => hf a

theorem tame_mapM {f : α → Outcome β} (xs : List α) (hf : ∀ a, Tame (f a)) :
    Tame (xs.mapM f) :=
  (ensures_mapM fun a _ => hf a).imp (fun _ => id) fun _ _ => trivial

theorem tame_foldlM {f : β → α → Outcome β} (hf : ∀ b a, Tame (f b a)) :
    ∀ (xs : List α) (b : β), Tame (xs.foldlM f b)
  | [], _ => trivial
  | x :: xs, b => by
    rw [List.foldlM_cons]
    exact tame_bind (hf b x) fun b => tame_foldlM hf xs b

theorem settleFor_tame (op : Form) (x : Except Fault α) : Tame (settleFor op x) := by
  cases x with
  | ok a => trivial
  | error f => exact Elementary.fault op f

namespace Scalar

theorem expectNumber_tame (c : Scalar) : Tame c.expectNumber := by
  unfold expectNumber
  split
  · trivial
  · exact Elementary.defect _

theorem combine_tame (op : Form) (f : Number → Number → Except Fault Number) (a b : Scalar) :
    Tame (combine op f a b) := by
  refine tame_bind a.expectNumber_tame fun m => tame_bind b.expectNumber_tame fun n => ?_
  exact tame_bind (settleFor_tame _ _) fun _ => trivial

theorem add_tame (a b : Scalar) : Tame (a.add b) := by
  unfold add
  split
  · trivial
  · exact combine_tame ..

theorem neg_tame (c : Scalar) : Tame c.neg :=
  tame_bind c.expectNumber_tame fun _ => tame_bind (settleFor_tame _ _) fun _ => trivial

theorem repeatedBy_tame (s : String) (c : Scalar) : Tame (repeatedBy s c) := by
  unfold repeatedBy
  split
  · exact tame_bind (settleFor_tame _ _) fun _ => trivial
  · exact Elementary.defect _

theorem mul_tame (a b : Scalar) : Tame (a.mul b) := by
  unfold mul
  split
  · exact repeatedBy_tame ..
  · exact repeatedBy_tame ..
  · exact combine_tame ..

theorem abs_tame (c : Scalar) : Tame c.abs :=
  tame_bind c.expectNumber_tame fun _ => trivial

theorem total_tame (op : Form) (cs : List Scalar) : Tame (total op cs) := by
  refine tame_bind (tame_foldlM (fun sum c => ?_) cs _) fun sum => ?_
  · exact tame_bind c.expectNumber_tame fun _ => settleFor_tame _ _
  · exact tame_bind (settleFor_tame _ _) fun _ => trivial

end Scalar

namespace Value

theorem type?_tame (v : Value) : Tame v.type? := by
  unfold type?
  split <;> first | trivial | exact Elementary.defect _

/-- A mismatch of types is no mismatch of numbers. -/
theorem mismatch_tame (expected : Form) (v : Value) :
    Tame (do fail (.typeMismatch expected (← v.type?)) : Outcome α) :=
  tame_bind v.type?_tame fun _ => Elementary.mismatch _ _

theorem content_tame (v : Value) : Tame v.content := by
  unfold content
  split
  · trivial
  · exact mismatch_tame ..

theorem operand_tame (op : InfixOp) (v : Value) : Tame (v.operand op) := by
  unfold operand
  split
  · exact tame_bind (tame_mapM _ content_tame) fun _ => Scalar.total_tame ..
  · exact content_tame _

theorem binary_tame (op : InfixOp) {f : Scalar → Scalar → Outcome Scalar}
    (hf : ∀ a b, Tame (f a b)) (l r : Value) : Tame (binary op f l r) := by
  refine tame_bind (operand_tame op l) fun a => tame_bind (operand_tame op r) fun b => ?_
  exact tame_bind (hf a b) fun _ => trivial

theorem add_tame (l r : Value) : Tame (l.add r) := by
  unfold add
  split
  · trivial
  split
  · exact tame_bind (Scalar.add_tame _ _) fun _ => trivial
  · exact binary_tame _ Scalar.add_tame _ _

theorem neg_tame (v : Value) : Tame v.neg :=
  tame_bind (operand_tame _ v) fun c => tame_bind c.neg_tame fun _ => trivial

end Value

theorem strict_tame (op : InfixOp) {f : Value → Value → Outcome Value} (hf : ∀ l r, Tame (f l r))
    (l r : Option Value) : Tame (strict op f l r) := by
  unfold strict
  split
  · exact hf _ _
  · exact Elementary.noOperands _
  · exact Elementary.missing _ _
  · exact Elementary.missing _ _

theorem lenient_tame (op : InfixOp) {one : Value → Outcome Value}
    {two : Value → Value → Outcome Value} (hone : ∀ v, Tame (one v))
    (htwo : ∀ l r, Tame (two l r)) (l r : Option Value) : Tame (lenient op one two l r) := by
  unfold lenient
  split
  · exact Elementary.missing _ _
  · exact hone _
  · exact htwo _ _

theorem reduce_tame (op : InfixOp) (left right : Option Value) : Tame (reduce op left right) := by
  unfold reduce
  cases op with
  | dice => exact Elementary.defect _
  | plus => exact lenient_tame _ (fun _ => ensures_ok trivial) Value.add_tame _ _
  | minus =>
    refine lenient_tame _ Value.neg_tame (fun l r => ?_) _ _
    exact Value.binary_tame _ (Scalar.combine_tame _ _) l r
  | mul => exact strict_tame _ (Value.binary_tame _ Scalar.mul_tame) _ _
  | div => exact strict_tame _ (Value.binary_tame _ (Scalar.combine_tame _ _)) _ _
  | pow => exact strict_tame _ (Value.binary_tame _ (Scalar.combine_tame _ _)) _ _

theorem diceOperand_tame (o : Option Value) : Tame (diceOperand o) := by
  unfold diceOperand
  split
  · trivial
  · trivial
  · exact Value.mismatch_tame ..

/-! ### Functions built in -/

namespace Builtin

theorem keyed_tame (vs : List Value) : Tame (keyed vs) := by
  refine tame_bind (tame_mapM vs fun v => ?_) fun items => ?_
  · exact tame_bind v.content_tame fun _ => trivial
  · split
    · trivial
    · exact Elementary.defect _

theorem extremeOf_tame (b : Builtin) (beats : Scalar → Scalar → Bool) (args : List Value) :
    Tame (extremeOf b beats args) := by
  refine tame_bind (keyed_tame _) fun items => ?_
  cases items with
  | nil => exact Elementary.noValues b
  | cons x xs => trivial

theorem sumOf_tame (args : List Value) : Tame (sumOf args) := by
  rw [sumOf_eq]
  refine tame_bind (tame_mapM _ Value.content_tame) fun cs => ?_
  exact tame_bind (Scalar.total_tame _ cs) fun _ => trivial

theorem lenOf_tame (v : Value) : Tame (lenOf v) := by
  unfold lenOf
  split
  · trivial
  · trivial
  · exact Elementary.defect _
  · exact Value.mismatch_tame ..

theorem absOf_tame (v : Value) : Tame (absOf v) :=
  tame_bind v.content_tame fun c => tame_bind c.abs_tame fun _ => trivial

theorem sortOf_tame (v : Value) : Tame (sortOf v) := by
  unfold sortOf
  split
  · exact tame_bind (keyed_tame _) fun _ => trivial
  · exact Value.mismatch_tame ..

theorem expectOne_tame (b : Builtin) (args : List Value) : Tame (expectOne b args) := by
  unfold expectOne
  split
  · trivial
  case h_2 args several =>
    refine Elementary.builtinArity b fun equal => ?_
    obtain ⟨v, hv⟩ := List.length_eq_one_iff.mp (Int.ofNat.inj equal)
    exact several v hv

theorem apply_tame (b : Builtin) (args : List Value) : Tame (b.apply args) := by
  cases b with
  | sum => exact sumOf_tame args
  | len => exact tame_bind (expectOne_tame _ args) lenOf_tame
  | max => exact extremeOf_tame ..
  | min => exact extremeOf_tame ..
  | abs => exact tame_bind (expectOne_tame _ args) absOf_tame
  | sort => exact tame_bind (expectOne_tame _ args) sortOf_tame

end Builtin

/-! ### Evaluation -/

/-- What is asked of the failures of an evaluation, so that they all satisfy `E`: the elementary ones
    do, and those of rolls and of the two checks that a call of a user function has to pass. -/
structure FailureRules [Host] (E : Failure → Prop) (env : Env) : Prop where
  elementary : ∀ {f}, Elementary f → E f
  roll : ∀ count sides, Eval.Ensures E (fun _ => True) (env.rollOperands count sides)
  arity : ∀ (name : String) {expected found : Nat}, found ≠ expected →
    E (.error (.arityMismatch name (.int expected) (.int found)))
  depth : ∀ name : String, Ensures E (fun _ : Value => True) (refuseBeyond env.maxCallDepth
    (.invalidOperation name ("call depth exceeded " ++ toString env.maxCallDepth)))

namespace FailureRules

variable [Host] {E : Failure → Prop} {env : Env}

theorem tame (h : FailureRules E env) {o : Outcome α} (ho : Tame o) :
    Ensures E (fun _ => True) o :=
  ho.imp (fun _ => h.elementary) fun _ _ => trivial

theorem scope (h : FailureRules E env) (bindings : List (String × Value)) :
    FailureRules E (env.scope bindings) :=
  ⟨h.elementary, h.roll, h.arity, h.depth⟩

theorem nodeRules (h : FailureRules E env) {call : String → List Value → Eval Value}
    (hcall : ∀ name args, Eval.Ensures E (fun _ => True) (call name args)) :
    NodeRules E (fun _ => True) (fun _ => True) env call where
  part _ _ := trivial
  lit _ _ _ := trivial
  list _ _ := trivial
  var name _ := by
    rw [Env.lookup]
    cases env.vars.get? name with
    | none => exact h.elementary (.undefined name)
    | some v => trivial
  call name _ vs _ _ := hcall name vs
  count o _ := h.tame (diceOperand_tame o)
  roll := h.roll
  op o _ _ a b _ _ _ _ := h.tame (reduce_tame o a b)
  range := h.elementary (.unimplemented _)
  filter := h.elementary (.unimplemented _)
  foreign _ := h.elementary (.malformed _)

/-- One call, given what the bodies of functions come to a call deeper. -/
theorem callWith (h : FailureRules E env) {run : Env → Expr → Eval Value}
    (hrun : env.callDepth < env.maxCallDepth → ∀ bindings body,
      Eval.Ensures E (fun _ => True) (run (env.scope bindings) body))
    (name : String) (args : List Value) :
    Eval.Ensures E (fun _ => True) (env.callWith run name args) := by
  unfold Env.callWith
  cases env.funs.get? name with
  | none =>
    cases env.builtins.get? name with
    | none => exact Eval.ensures_fail (h.elementary (.undefined name))
    | some b => exact Eval.ensures_lift (h.tame (b.apply_tame args))
  | some f =>
    dsimp only
    split
    · exact Eval.ensures_fail (h.arity name (by assumption))
    split
    · exact Eval.ensures_lift (h.depth name)
    · exact hrun (by omega) _ _

/-- What holds of the failures of all steps holds of every failure. -/
theorem eval (h : FailureRules E env) (e : Expr) :
    Eval.Ensures E (fun _ => True) (e.eval env) := by
  induction env using Env.deeper_induct generalizing e with
  | step env ih =>
    rw [Expr.eval_eq]
    refine e.evalWith_ensures (h.nodeRules fun name args => ?_) trivial
    exact h.callWith (fun deeper bindings body => ih deeper bindings (h.scope bindings) body) name args

theorem call (h : FailureRules E env) (name : String) (args : List Value) :
    Eval.Ensures E (fun _ => True) (env.call name args) :=
  h.callWith (fun _ bindings body => (h.scope bindings).eval body) name args

end FailureRules

end DiceNotation
