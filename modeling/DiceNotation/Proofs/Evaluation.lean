import DiceNotation.Proofs.Raised

/-!
Evaluation stays in a closed fragment.

If the variables, the function bodies and the expression are in a closed fragment, then evaluation
gives a value of the fragment or raises one of the listed errors (`eval_in`), whatever the dice
show, however the functions call one another and wherever a call stops at the limit of depth. The
step is about one expression: it follows from a rule for every kind of node (`NodeRules`), which
assumes as much of the calls in it. The calls are then followed by induction on the depth that is
left.
-/

namespace DiceNotation

open Outcome

variable {F : Fragment} {fault : Form → Fault → Prop} {env : Env}
  {call : String → List Value → Eval Value}

/-! ### Operands of dice -/

theorem diceOperand_in {o : Option Value} (h : ∀ v ∈ o, v.In F) :
    Ensures (Raised F.name fault) (fun _ => True) (diceOperand o) := by
  cases o with
  | none => trivial
  | some v =>
    have hv := h v rfl
    cases v with
    | number n =>
      cases n with
      | int n => trivial
      | real x => exact Raised.notType .int .real
    | text s => exact Raised.notType .int .text
    | list vs => exact Raised.notType .int .list
    | stray s => exact hv.elim

/-! ### Expressions -/

theorem evalAllWith_ensures [Host] {E : Failure → Prop} {Q : Value → Prop} : ∀ {es : List Expr},
    (∀ e ∈ es, Eval.Ensures E Q (e.evalWith env call)) →
    Eval.Ensures E (fun vs => ∀ v ∈ vs, Q v) (evalAllWith env call es)
  | [], _ => by
    rw [evalAllWith]
    exact Eval.ensures_pure (by simp)
  | e :: es, h => by
    rw [evalAllWith]
    refine (h e (List.mem_cons_self ..)).bind fun v hv => ?_
    refine (evalAllWith_ensures fun e' he' => h e' (List.mem_cons_of_mem _ he')).bind fun vs hvs => ?_
    exact Eval.ensures_pure (List.forall_mem_cons.mpr ⟨hv, hvs⟩)

theorem evalOptionWith_ensures [Host] {E : Failure → Prop} {Q : Value → Prop} {o : Option Expr}
    (h : ∀ e ∈ o, Eval.Ensures E Q (e.evalWith env call)) :
    Eval.Ensures E (fun w => ∀ v ∈ w, Q v) (evalOptionWith env call o) := by
  cases o with
  | none =>
    rw [evalOptionWith]
    exact Eval.ensures_pure (by simp)
  | some e =>
    rw [evalOptionWith]
    refine (h e rfl).bind fun v hv => Eval.ensures_pure fun w hw => ?_
    exact Option.some.inj hw ▸ hv

/-- What is asked of expressions node by node, so that those with `P` come to values with `Q` or to
    failures with `E`. A value with `Q` may be an operand of any operator. -/
structure NodeRules [Host] (E : Failure → Prop) (Q : Value → Prop) (P : Expr → Prop) (env : Env)
    (call : String → List Value → Eval Value) : Prop where
  part : ∀ {p e : Expr}, P e → p.Part e → P p
  lit : ∀ v ok, P (.lit v ok) → Q v
  list : ∀ vs, (∀ v ∈ vs, Q v) → Q (.list vs)
  var : ∀ name, P (.var name) → Ensures E Q (env.lookup name)
  call : ∀ name args vs, P (.call name args) → (∀ v ∈ vs, Q v) → Eval.Ensures E Q (call name vs)
  count : ∀ o : Option Value, (∀ v ∈ o, Q v) → Ensures E (fun _ => True) (diceOperand o)
  roll : ∀ count sides, Eval.Ensures E Q (env.rollOperands count sides)
  op : ∀ o l r a b, P (.op o l r) → o ≠ .dice → (∀ v ∈ a, Q v) → (∀ v ∈ b, Q v) →
    Ensures E Q (reduce o a b)
  range : E (.error (.unimplemented "range"))
  filter : E (.error (.unimplemented "filter"))
  foreign : ∀ kind : Kind, E (.error (.malformed (kind.name ++ " is not an expression")))

/-- One expression, given what its calls come to. -/
theorem Expr.evalWith_ensures [Host] {E : Failure → Prop} {Q : Value → Prop} {P : Expr → Prop}
    (rules : NodeRules E Q P env call) (e : Expr) :
    P e → Eval.Ensures E Q (e.evalWith env call) := by
  induction e with
  | lit v ok =>
    intro he
    rw [evalWith]
    exact Eval.ensures_pure (rules.lit v ok he)
  | list items ih =>
    intro he
    have hitems := evalAllWith_ensures fun e hi => ih e hi (rules.part he (.item hi .whole))
    rw [evalWith]
    exact hitems.bind fun vs hvs => Eval.ensures_pure (rules.list vs hvs)
  | var name =>
    intro he
    rw [evalWith]
    exact Eval.ensures_lift (rules.var name he)
  | call name args ih =>
    intro he
    have hargs := evalAllWith_ensures fun e ha => ih e ha (rules.part he (.arg ha .whole))
    rw [evalWith]
    exact hargs.bind fun vs hvs => rules.call name args vs he hvs
  | op o l r ihl ihr =>
    intro he
    have hl := evalOptionWith_ensures fun e h => ihl e h (rules.part he (.left h .whole))
    have hr := evalOptionWith_ensures fun e h => ihr e h (rules.part he (.right h .whole))
    by_cases hd : o = .dice
    · subst hd
      rw [evalWith]
      refine hl.bind fun a ha => (Eval.ensures_lift (rules.count a ha)).bind fun count _ => ?_
      refine hr.bind fun b hb => (Eval.ensures_lift (rules.count b hb)).bind fun sides _ => ?_
      exact rules.roll count sides
    · rw [evalWith_op hd]
      refine hl.bind fun a ha => hr.bind fun b hb => ?_
      exact Eval.ensures_lift (rules.op o l r a b he hd ha hb)
  | range => exact fun _ => Eval.ensures_fail rules.range
  | filter => exact fun _ => Eval.ensures_fail rules.filter
  | foreign kind => exact fun _ => Eval.ensures_fail (rules.foreign kind)

/-! ### Closed fragments -/

open Unlimited

theorem Env.rollOperands_in (hF : F.Closed fault) (env : Env) (count sides : Int) :
    Eval.Ensures (Raised F.name fault) (Value.In F) (env.rollOperands count sides) := by
  intro d
  refine env.rollOperands_cases_unlimited count sides d ?_ ?_ ?_ ?_
  · exact fun _ => Raised.negative count
  · exact fun _ _ => Raised.negative sides
  · exact fun _ _ _ => Raised.tooManyDice _
  · refine fun _ _ _ faces d' _ => Value.in_list_iff.mpr fun v hv => ?_
    obtain ⟨n, -, rfl⟩ := List.mem_map.mp hv
    exact hF.int n

/-- The rules for the expressions of a closed fragment. -/
theorem NodeRules.of_closed (hF : F.Closed fault) (henv : env.In F)
    (hcall : ∀ name args, F.name name → (∀ v ∈ args, v.In F) →
      Eval.Ensures (Raised F.name fault) (Value.In F) (call name args)) :
    NodeRules (Raised F.name fault) (Value.In F) (Expr.In F) env call where
  part he hp := he.of_part hp
  lit v ok he := he.lit v ok .whole
  list vs hvs := Value.in_list_iff.mpr hvs
  var name he := by
    rw [Env.lookup]
    cases hv : env.vars.get? name with
    | none => exact Raised.undefined (he.var name .whole)
    | some v => exact henv.vars name v hv
  call name args vs he hvs := hcall name vs (he.call name args .whole) hvs
  count o ho := diceOperand_in ho
  roll count sides := env.rollOperands_in hF count sides
  op o l r a b he hd ha hb := reduce_in hF (he.op o l r .whole) hd ha hb
  range := .range
  filter := .filter
  foreign := .notExpr

/-- One call, given what the bodies of functions come to a call deeper. -/
theorem Env.callWith_in (hF : F.Closed fault) {run : Env → Expr → Eval Value} (henv : env.In F)
    (hrun : env.callDepth < env.maxCallDepth → ∀ bindings body,
      (env.scope bindings).In F → body.In F →
      Eval.Ensures (Raised F.name fault) (Value.In F) (run (env.scope bindings) body))
    (name : String) (args : List Value) (hname : F.name name) (hargs : ∀ v ∈ args, v.In F) :
    Eval.Ensures (Raised F.name fault) (Value.In F) (env.callWith run name args) := by
  unfold Env.callWith
  cases hf : env.funs.get? name with
  | none =>
    cases env.builtins.get? name with
    | none => exact Eval.ensures_fail (.undefined hname)
    | some b => exact Eval.ensures_lift (b.apply_in hF hargs)
  | some f =>
    dsimp only
    split
    · exact Eval.ensures_fail (.arity _ _ hname)
    split
    · exact Eval.ensures_fail (.tooDeep _ hname)
    · refine hrun (by omega) _ _ (henv.scope fun b hb => ?_) (henv.funs name f hf)
      exact hargs _ (List.of_mem_zip hb).2

theorem Expr.eval_in (hF : F.Closed fault) (henv : env.In F) (e : Expr) (he : e.In F) :
    Eval.Ensures (Raised F.name fault) (Value.In F) (e.eval env) := by
  induction env using Env.deeper_induct generalizing e with
  | step env ih =>
    rw [Expr.eval_eq]
    refine e.evalWith_ensures (.of_closed hF henv fun name args hname hargs => ?_) he
    exact Env.callWith_in hF henv (fun h bindings body hs hb => ih h bindings hs body hb)
      name args hname hargs

end DiceNotation
