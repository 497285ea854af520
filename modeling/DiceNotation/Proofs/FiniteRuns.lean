import DiceNotation.Proofs.Evaluation
import DiceNotation.Proofs.Finite
import DiceNotation.Proofs.History

/-!
No infinity and no NaN turns up in a session.

Where the variables, the literals in bodies and those of an expression are finite, the expression has
a finite value or fails (`eval_finite`): by induction on the expression, the calls in it being
followed by induction on the depth that is left. A command keeps variables and bodies finite
(`exec_finite`), and so does a run, whether it gets through its commands or ends in a defect before,
as may happen where strays stand in variables (`run_stays_finite`).
-/

namespace DiceNotation

open Outcome

/-- The literals of an expression are finite. -/
def Expr.Finite (e : Expr) : Prop := ∀ v ok, (Expr.lit v ok).Part e → v.Finite

/-- The values of variables are finite, and so are the literals in bodies. -/
structure Env.Finite (env : Env) : Prop where
  vars : ∀ name v, env.vars.get? name = some v → v.Finite
  funs : ∀ name f, env.funs.get? name = some f → f.body.Finite

/-- The literals of a statement are finite, those in the body that it declares included. -/
def Stmt.Finite : Stmt → Prop
  | .assign _ e => e.Finite
  | .define _ f => f.body.Finite
  | _ => True

/-- The literals of a command are finite. -/
def Command.Finite : Command → Prop
  | .statement s => s.Finite
  | .expression e => e.Finite
  | .foreign _ => True

/-- What the change binds is finite. -/
def Mutation.Finite : Mutation → Prop
  | .assign _ v => v.Finite
  | .declare _ f => f.body.Finite
  | .delete _ | .clear => True

theorem Expr.Finite.of_part {p e : Expr} (h : e.Finite) (hp : p.Part e) : p.Finite :=
  fun v ok hq => h v ok (hq.trans hp)

theorem Env.Finite.apply {env : Env} (h : env.Finite) {m : Mutation} (hm : m.Finite) :
    (env.apply m).Finite := by
  cases m with
  | assign name v => exact ⟨Bindings.forall_bind h.vars hm name, Bindings.forall_release h.funs name⟩
  | declare name f => exact ⟨Bindings.forall_release h.vars name, Bindings.forall_bind h.funs hm name⟩
  | delete name => exact ⟨Bindings.forall_release h.vars name, Bindings.forall_release h.funs name⟩
  | clear => exact ⟨Bindings.forall_empty, Bindings.forall_empty⟩

/-! ### Evaluation -/

section

variable [Host] {env : Env} {call : String → List Value → Eval Value}

theorem Env.rollOperands_finite (env : Env) (count sides : Int) :
    Eval.Gives Value.Finite (env.rollOperands count sides) := by
  intro d
  refine env.rollOperands_cases count sides d ?_ ?_ ?_ ?_ ?_
  · exact fun _ => trivial
  · exact fun _ _ => trivial
  · exact fun _ _ _ => ensures_refuseBeyond (fun _ => trivial) trivial
  · exact fun _ _ _ _ _ => trivial
  · refine fun _ _ _ _ faces d' _ => Value.finite_list_iff.mpr fun v hv => ?_
    obtain ⟨n, -, rfl⟩ := List.mem_map.mp hv
    exact Value.finite_int n

/-- The rules for finite expressions; any failure is fine. -/
theorem NodeRules.finite (henv : env.Finite)
    (hcall : ∀ name args, (∀ v ∈ args, v.Finite) → Eval.Gives Value.Finite (call name args)) :
    NodeRules (fun _ => True) Value.Finite Expr.Finite env call where
  part he hp := he.of_part hp
  lit v ok he := he v ok .whole
  list _ hvs := Value.finite_list_iff.mpr hvs
  var name _ := by
    rw [Env.lookup]
    cases hv : env.vars.get? name with
    | none => trivial
    | some v => exact henv.vars name v hv
  call name _ vs _ hvs := hcall name vs hvs
  count o _ := by cases diceOperand o <;> trivial
  roll := env.rollOperands_finite
  op o _ _ _ _ _ _ ha hb := reduce_finite o ha hb
  range := trivial
  filter := trivial
  foreign _ := trivial

/-- One call, given what the bodies of functions come to a call deeper. -/
theorem Env.callWith_finite {run : Env → Expr → Eval Value} (henv : env.Finite)
    (hrun : env.callDepth < env.maxCallDepth → ∀ bindings body, (env.scope bindings).Finite →
      body.Finite → Eval.Gives Value.Finite (run (env.scope bindings) body))
    (name : String) (args : List Value) (hargs : ∀ v ∈ args, v.Finite) :
    Eval.Gives Value.Finite (env.callWith run name args) := by
  unfold Env.callWith
  cases hf : env.funs.get? name with
  | none =>
    cases env.builtins.get? name with
    | none => exact Eval.ensures_fail trivial
    | some b => exact Eval.ensures_lift (b.apply_finite hargs)
  | some f =>
    have hbound : ∀ b ∈ f.params.zip args, b.2.Finite := fun b hb => hargs _ (List.of_mem_zip hb).2
    have hscope : (env.scope (f.params.zip args)).Finite :=
      ⟨Bindings.forall_bindAll henv.vars hbound, henv.funs⟩
    dsimp only
    split
    · exact Eval.ensures_fail trivial
    split
    · exact Eval.ensures_lift (ensures_refuseBeyond (fun _ => trivial) trivial)
    · exact hrun (by omega) _ _ hscope (henv.funs name f hf)

/-- Finite variables, bodies and literals have finite values. -/
theorem Expr.eval_finite (henv : env.Finite) (e : Expr) (he : e.Finite) :
    Eval.Gives Value.Finite (e.eval env) := by
  induction env using Env.deeper_induct generalizing e with
  | step env ih =>
    rw [Expr.eval_eq]
    refine e.evalWith_ensures (.finite henv fun name args hargs => ?_) he
    exact Env.callWith_finite henv (fun h bindings body hs hb => ih h bindings hs body hb) name args
      hargs

/-! ### Commands -/

theorem Stmt.mutation_finite (henv : env.Finite) {s : Stmt} (hs : s.Finite) :
    Eval.Gives Mutation.Finite (s.mutation env) := by
  cases s with
  | assign name e => exact (e.eval_finite henv hs).bind fun v hv => Eval.ensures_pure hv
  | define name f => exact Eval.ensures_pure hs
  | delete name => exact Eval.ensures_pure trivial
  | clear => exact Eval.ensures_pure trivial
  | run path => exact Eval.ensures_fail trivial
  | save path => exact Eval.ensures_fail trivial
  | bare => exact Eval.ensures_fail trivial
  | foreign kind => exact Eval.ensures_fail trivial

/-- What a command gives is finite, and the environment after it is. -/
theorem Command.exec_finite (henv : env.Finite) {c : Command} (hc : c.Finite) (d : Dice) :
    Gives (fun w => ∀ v ∈ w, v.Finite) (c.exec env d).outcome ∧ (c.exec env d).env.Finite := by
  cases c with
  | statement s =>
    have h := Stmt.mutation_finite henv hc d
    rw [exec_statement_outcome, exec_statement_env]
    rcases hm : (s.mutation env d).outcome with f | m
    · rw [s.exec_env_of_error env d hm]
      exact ⟨trivial, henv⟩
    · rw [hm] at h
      rw [s.exec_env_of_ok env d hm]
      refine ⟨fun v hv => ?_, henv.apply h⟩
      cases hv
  | expression e =>
    have h := e.eval_finite henv hc d
    exact ⟨h.map fun v hv w hw => Value.given?_finite hv hw, henv⟩
  | foreign kind => exact ⟨trivial, henv⟩

/-! ### Runs -/

/-- The values that a run has added to those of the session are finite, and those it returns are the
    same; the environment after it is finite. -/
structure Session.StaysFinite (s : Session) (r : Report (List Value)) : Prop where
  values : ∃ vs, (∀ v ∈ vs, v.Finite) ∧ r.session.results = s.results ++ vs ∧
    ∀ us, r.outcome = .ok us → us = vs
  env : r.session.env.Finite

theorem Session.run_finite (cs : List Command) (s : Session) (henv : s.env.Finite)
    (hcs : ∀ c ∈ cs, c.Finite) : s.StaysFinite (s.run cs) := by
  obtain ⟨hend, hvalues⟩ := s.run_keeps henv fun c hc _ d h => c.exec_finite h (hcs c hc) d
  exact ⟨hvalues, hend⟩

/-- If there are only finite numbers in the variables, the bodies and the commands of a session, then
    all values that a run gives and keeps are without infinities and NaN, and so are all variables,
    after each of the commands. And whatever the operands are, no operation on values and no sum
    gives an infinite number or NaN. -/
theorem run_stays_finite (s : Session) (henv : s.env.Finite) (cs : List Command)
    (hcs : ∀ c ∈ cs, c.Finite) :
    (∀ as bs, cs = as ++ bs → s.StaysFinite (s.run as)) ∧
      (∀ f ∈ [Value.add, Value.sub, Value.mul, Value.div, Value.pow], ∀ l r n,
        f l r = .ok (.number n) → n.isFinite = true) ∧
      (∀ v n, Value.neg v = .ok (.number n) → n.isFinite = true) ∧
      ∀ args n, Builtin.sum.apply args = .ok (.number n) → n.isFinite = true := by
  have given : ∀ {o : Outcome Value}, Gives Value.Finite o →
      ∀ n, o = .ok (.number n) → n.isFinite = true := by
    rintro o h n rfl
    exact Value.finite_number_iff.mp h
  refine ⟨?_, ?_, fun v => given v.neg_finite, fun args => given (Builtin.sumOf_finite args)⟩
  · rintro as bs rfl
    exact s.run_finite as henv fun c hc => hcs c (List.mem_append_left bs hc)
  · intro f hf l r n hn
    simp only [List.mem_cons, List.not_mem_nil, or_false] at hf
    rcases hf with rfl | rfl | rfl | rfl | rfl
    · have joins := Value.add_joins l r
      rw [hn] at joins
      rcases joins with h | ⟨_, _, _, _, h⟩
      · exact Value.finite_number_iff.mp h
      · cases h
    · exact given (l.sub_finite r) n hn
    · exact given (l.mul_finite r) n hn
    · exact given (l.div_finite r) n hn
    · exact given (l.pow_finite r) n hn

end

/-- The square of the greatest finite number is refused, and the number is found again among the two of
    its magnitude; then a stray ends the run. -/
theorem greatest_stays_finite :
    let greatest : Binary64 := .finite ⟨false, 0x1fffffffffffff, 971, by decide⟩
    let env : Env := { Env.initial with
      vars := (Bindings.empty.bind "x" (.real greatest)).bind "y" (.stray (.number .absent)) }
    let s := Session.start env (Seed.int 7).dice
    let cs : List Command := [.expression (.op .mul (some (.var "x")) (some (.var "x"))),
      .statement (.assign "x" (.list [.op .minus none (some (.var "x")), .var "x"])),
      .expression (.call "max" [.var "x"]), .expression (.call "sum" [.var "y"])]
    s.env.Finite ∧ (∀ c ∈ cs, c.Finite) ∧
      (s.run cs).session.diagnostics = ["Error: Invalid operation '*': result is too large"] ∧
      (s.run cs).session.results.map Value.shown = ["1.7976931348623157e+308"] ∧
      s.StaysFinite (s.run cs) := by
  intro greatest env s cs
  have hx := Bindings.forall_bind (P := Value.Finite) Bindings.forall_empty (y := .real greatest)
    (Value.finite_number_iff.mpr rfl) "x"
  have hy : (Value.stray (.number .absent)).Finite :=
    Form.finite_field_iff.mpr fun x hx => nomatch hx
  have henv : s.env.Finite := ⟨Bindings.forall_bind hx hy "y", Bindings.forall_empty⟩
  have hcs : ∀ c ∈ cs, c.Finite := by
    simp only [cs, List.forall_mem_cons]
    refine ⟨?_, ?_, ?_, ?_, fun _ h => nomatch h⟩ <;> exact fun v ok hp => by simp at hp
  refine ⟨henv, hcs, ?_, ?_, (run_stays_finite s henv cs hcs).1 cs [] (by simp)⟩
  · decide +kernel
  · decide +kernel

end DiceNotation
