import DiceNotation.Proofs.Dependence

/-!
What a function sees of its caller.

A body is evaluated over the variables of the environment that the call is made in, so the parameters
of a caller are in sight of the functions that it calls. They make no difference to a function that
reads only variables which they leave as they are, and they do to others (`call_scope_iff`): with
`g` defined to be `x`, a call of `g` from the body of a function of `x` gives the argument of that
function (`parameter_leaks`).
-/

namespace DiceNotation

variable {env env' : Env}

theorem Env.get?_eq_of_lookup_eq {x : String} (h : env.lookup x = env'.lookup x) :
    env.vars.get? x = env'.vars.get? x := by
  unfold Env.lookup at h
  cases hv : env.vars.get? x with
  | none =>
    cases hv' : env'.vars.get? x with
    | none => rfl
    | some v => rw [hv, hv'] at h; cases h
  | some v =>
    cases hv' : env'.vars.get? x with
    | none => rw [hv, hv'] at h; cases h
    | some w =>
      rw [hv, hv'] at h
      exact congrArg some (Except.ok.inj h)

/-- A function without parameters that names a variable gives what its caller has under the name. -/
theorem Env.call_reader [Host] {g x : String} (hf : env.funs.get? g = some ⟨[], .var x⟩)
    (hd : env.callDepth < env.maxCallDepth) (d : Dice) :
    env.call g [] d = ⟨env.lookup x, d, []⟩ := by
  rw [call_below_limit hf rfl hd, Expr.eval_eq, Expr.evalWith]
  rfl

/-- Without a call left the bindings of the caller make no difference. -/
theorem Env.call_scope_of_limit [Host] (env : Env) {g : String} {f : Function}
    (hf : env.funs.get? g = some f) (hd : env.maxCallDepth ≤ env.callDepth + 1)
    (bindings bindings' : List (String × Value)) (args : List Value) :
    (env.scope bindings).call g args = (env.scope bindings').call g args := by
  unfold Env.call Env.callWith Env.scope
  simp only [hf]
  rw [if_pos hd, if_pos hd]

/-- The scopes agree on a function if the bindings leave what it reads as it is. -/
theorem agree_scope (env : Env) {bindings : List (String × Value)} {g : String} {f : Function}
    (hf : env.funs.get? g = some f)
    (h : ∀ x, x ∉ f.params → Reads env.funs x f.body →
      (env.vars.bindAll bindings).get? x = env.vars.get? x) :
    Agree (.call g []) (env.scope bindings) (env.scope []) where
  vars x hx := by
    cases hx with
    | named hpart =>
      cases hpart with
      | arg he => cases he
    | body hpart hf' hparam hx =>
      cases hpart with
      | whole =>
        obtain rfl := Option.some.inj (hf.symm.trans hf')
        exact h x hparam hx
      | arg he => cases he
  funs _ _ := rfl
  builtins := rfl
  maxCallDepth := rfl
  maxRollCount := rfl
  callDepth := rfl

/-- Whether the bindings of a caller make a difference to the functions that it calls: they make
    none to any function that reads only some given variables from outside if and only if they leave
    each of these as it is, or no call is left that could be made. The scope without bindings is the
    environment itself, a call deeper. A function that saw its own parameters and the variables of the
    outermost environment only would not depend on the bindings of a caller at all; but a scope is made
    over the variables of the caller, as `call_binds_parameters` states it of a single call. -/
theorem call_scope_iff [Host] (env : Env) (bindings : List (String × Value)) (names : String → Prop) :
    (∀ (funs : Bindings Function) (g : String) (f : Function) (args : List Value) (d : Dice),
        funs.get? g = some f → (∀ x, x ∉ f.params → Reads funs x f.body → names x) →
        ({ env with funs := funs }.scope bindings).call g args d =
          ({ env with funs := funs }.scope []).call g args d) ↔
      (env.maxCallDepth ≤ env.callDepth + 1 ∨
        ∀ x, names x → (env.vars.bindAll bindings).get? x = env.vars.get? x) := by
  refine ⟨fun h => ?_, fun h funs g f args d hf hreads => ?_⟩
  · by_cases hd : env.maxCallDepth ≤ env.callDepth + 1
    · exact .inl hd
    refine .inr fun x hx => ?_
    let reader : Bindings Function := Bindings.empty.bind "g" ⟨[], .var x⟩
    have hg : reader.get? "g" = some ⟨[], .var x⟩ := by simp [reader]
    have only : ∀ y, Reads reader y (.var x) → y = x := by
      intro y hy
      cases hy with
      | named hpart => cases hpart; rfl
      | body hpart => cases hpart
    have same := h reader "g" ⟨[], .var x⟩ [] (Seed.int 0).dice hg fun y _ hy =>
      (only y hy).symm ▸ hx
    rw [Env.call_reader hg (by simp only [Env.scope]; omega),
      Env.call_reader hg (by simp only [Env.scope]; omega)] at same
    exact Env.get?_eq_of_lookup_eq (congrArg Trace.outcome same)
  · let inner : Env := { env with funs := funs }
    rcases h with hd | h
    · exact congrFun (inner.call_scope_of_limit hf hd bindings [] args) d
    · have agree := agree_scope inner hf fun x hparam hx => h x (hreads x hparam hx)
      exact congrFun (agree.call .whole args) d

/-- A function can find a parameter of its caller where outside of the caller there is nothing. -/
theorem parameter_leaks : ¬∀ (env : Env) (bindings : List (String × Value)) (g : String)
    (f : Function) (args : List Value) (d : Dice), env.funs.get? g = some f →
    (env.scope bindings).call g args d = (env.scope []).call g args d := by
  intro h
  let env : Env := { Env.initial with funs := Bindings.empty.bind "g" ⟨[], .var "x"⟩ }
  have same := congrArg Trace.outcome
    (h env [("x", .int 1)] "g" ⟨[], .var "x"⟩ [] (Seed.int 0).dice rfl)
  rw [Env.call_reader rfl (by decide), Env.call_reader rfl (by decide)] at same
  cases same

end DiceNotation
