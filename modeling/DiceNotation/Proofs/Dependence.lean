import DiceNotation.Proofs.Parts

/-!
What an evaluation depends on.

An expression reads variables, calls functions and rolls dice, and so do the bodies of the functions
that it calls. A body finds its parameters bound by the call and every other variable as the caller
has it, so it reads from outside what it has no parameter for (`Reads`). Environments that agree on
these variables and functions, on the functions built in and on the limits evaluate the expression
alike, however else they differ (`Agree.eval`).

An evaluation is put together from outcomes and rolls, one evaluation after another. So a relation
that these respect (`Composed`) holds between the two evaluations, and the rolls matter only if there
are any (`Agree.related`). Equality is such a relation; others tell what evaluation does to dice.
-/

namespace DiceNotation

/-- The expression reads the variable: it names it, or a function that it calls reads it and has no
    parameter of that name. -/
inductive Reads (funs : Bindings Function) (x : String) : Expr → Prop
  | named {e} : (Expr.var x).Part e → Reads funs x e
  | body {e name args f} : (Expr.call name args).Part e → funs.get? name = some f → x ∉ f.params →
    Reads funs x f.body → Reads funs x e

/-- The expression calls the function, or a function that it calls does. -/
inductive Calls (funs : Bindings Function) (g : String) : Expr → Prop
  | named {e args} : (Expr.call g args).Part e → Calls funs g e
  | body {e name args f} : (Expr.call name args).Part e → funs.get? name = some f →
    Calls funs g f.body → Calls funs g e

/-- The expression rolls dice, or a function that it calls does. -/
inductive Rolls (funs : Bindings Function) : Expr → Prop
  | dice {e l r} : (Expr.op .dice l r).Part e → Rolls funs e
  | body {e name args f} : (Expr.call name args).Part e → funs.get? name = some f →
    Rolls funs f.body → Rolls funs e

/-- The environments agree on everything that the expression depends on. -/
structure Agree (e : Expr) (env env' : Env) : Prop where
  vars : ∀ x, Reads env.funs x e → env.vars.get? x = env'.vars.get? x
  funs : ∀ g, Calls env.funs g e → env.funs.get? g = env'.funs.get? g
  builtins : env.builtins = env'.builtins
  maxCallDepth : env.maxCallDepth = env'.maxCallDepth
  maxRollCount : env.maxRollCount = env'.maxRollCount
  callDepth : env.callDepth = env'.callDepth

/-- The relation holds between an outcome and itself, and between evaluations one after the other if
    it does between each and its counterpart. -/
structure Composed (S : ∀ α : Type, Eval α → Eval α → Prop) : Prop where
  lift : ∀ {α} (o : Outcome α), S α (Eval.lift o) (Eval.lift o)
  bind : ∀ {α β} {x y : Eval α} {f g : α → Eval β}, S α x y → (∀ a, S β (f a) (g a)) →
    S β (x >>= f) (y >>= g)

/-- Evaluations are the same if their steps are. -/
theorem Composed.eq : Composed fun _ x y => x = y where
  lift _ := rfl
  bind hx hf := by rw [hx, funext hf]

/-! ### One expression -/

section

variable {S : ∀ α : Type, Eval α → Eval α → Prop} {env env' : Env} {host host' : Host}
  {call call' : String → List Value → Eval Value}

theorem evalAllWith_related (hS : Composed S) : ∀ {es : List Expr},
    (∀ e ∈ es, S _ (@Expr.evalWith host env call e) (@Expr.evalWith host' env' call' e)) →
    S _ (@evalAllWith host env call es) (@evalAllWith host' env' call' es)
  | [], _ => hS.lift (.ok [])
  | e :: es, h => by
    have others := evalAllWith_related hS fun e' he' => h e' (List.mem_cons_of_mem e he')
    exact hS.bind (h e (List.mem_cons_self ..)) fun _ => hS.bind others fun _ => hS.lift (.ok _)

theorem evalOptionWith_related (hS : Composed S) : ∀ {o : Option Expr},
    (∀ e ∈ o, S _ (@Expr.evalWith host env call e) (@Expr.evalWith host' env' call' e)) →
    S _ (@evalOptionWith host env call o) (@evalOptionWith host' env' call' o)
  | none, _ => hS.lift (.ok none)
  | some e, h => hS.bind (h e rfl) fun _ => hS.lift (.ok _)

/-- One expression depends on the variables, the rolls and the calls in it, on whatever hosts they are
    made. -/
theorem Expr.evalWith_related (hS : Composed S) (e : Expr)
    (hvar : ∀ x, (Expr.var x).Part e → env.vars.get? x = env'.vars.get? x)
    (hroll : ∀ l r, (Expr.op .dice l r).Part e →
      ∀ n k, S _ (@Env.rollOperands host env n k) (@Env.rollOperands host' env' n k))
    (hcall : ∀ name args, (Expr.call name args).Part e → ∀ vs, S _ (call name vs) (call' name vs)) :
    S _ (@Expr.evalWith host env call e) (@Expr.evalWith host' env' call' e) := by
  induction e with
  | lit v ok => exact hS.lift (.ok v)
  | list items ih =>
    have all := evalAllWith_related hS fun e he => ih e he (fun x h => hvar x (.item he h))
      (fun l r h => hroll l r (.item he h)) fun name args h => hcall name args (.item he h)
    exact hS.bind all fun vs => hS.lift (.ok _)
  | var x =>
    have same : env.lookup x = env'.lookup x := by rw [Env.lookup, Env.lookup, hvar x .whole]
    show S _ (Eval.lift (env.lookup x)) (Eval.lift (env'.lookup x))
    rw [same]
    exact hS.lift _
  | call name args ih =>
    have all := evalAllWith_related hS fun e he => ih e he (fun x h => hvar x (.arg he h))
      (fun l r h => hroll l r (.arg he h)) fun name args h => hcall name args (.arg he h)
    exact hS.bind all fun vs => hcall name args .whole vs
  | op o l r ihl ihr =>
    have hl := evalOptionWith_related hS fun e he => ihl e he (fun x h => hvar x (.left he h))
      (fun l r h => hroll l r (.left he h)) fun name args h => hcall name args (.left he h)
    have hr := evalOptionWith_related hS fun e he => ihr e he (fun x h => hvar x (.right he h))
      (fun l r h => hroll l r (.right he h)) fun name args h => hcall name args (.right he h)
    by_cases hd : o = .dice
    · subst hd
      refine hS.bind hl fun a => hS.bind (hS.lift _) fun n => ?_
      exact hS.bind hr fun b => hS.bind (hS.lift _) fun k => hroll l r .whole n k
    · rw [@evalWith_op host _ _ _ hd, @evalWith_op host' _ _ _ hd]
      exact hS.bind hl fun a => hS.bind hr fun b => hS.lift _
  | range => exact hS.lift _
  | filter => exact hS.lift _
  | foreign kind => exact hS.lift _

end

/-! ### Calls -/

/-- A parameter is bound by the call, whatever the caller has under its name. -/
theorem Env.scope_get?_congr {env env' : Env} {params : List String} {args : List Value}
    (hlen : args.length = params.length) {x : String}
    (h : x ∉ params → env.vars.get? x = env'.vars.get? x) :
    (env.scope (params.zip args)).vars.get? x = (env'.scope (params.zip args)).vars.get? x := by
  simp only [Env.scope, Bindings.get?_bindAll]
  cases hx : (params.zip args).reverse.lookup x with
  | some v => rfl
  | none =>
    refine h fun hmem => ?_
    rw [← List.map_fst_zip (Nat.le_of_eq hlen.symm)] at hmem
    obtain ⟨pair, hpair, rfl⟩ := List.mem_map.mp hmem
    have unbound := List.lookup_eq_none_iff.mp hx pair (List.mem_reverse.mpr hpair)
    simp at unbound

theorem Env.rollOperands_congr [Host] {env env' : Env} (h : env.maxRollCount = env'.maxRollCount)
    (count sides : Int) : env.rollOperands count sides = env'.rollOperands count sides := by
  unfold Env.rollOperands Env.roll
  rw [h]

namespace Agree

variable {S : ∀ α : Type, Eval α → Eval α → Prop} {env env' : Env} {e : Expr}

theorem refl (e : Expr) (env : Env) : Agree e env env :=
  ⟨fun _ _ => rfl, fun _ _ => rfl, rfl, rfl, rfl, rfl⟩

/-- What environments agree on for a call, their scopes agree on for the body. -/
theorem scope (h : Agree e env env') {name : String} {exprs : List Expr}
    (hpart : (Expr.call name exprs).Part e) {f : Function} (hf : env.funs.get? name = some f)
    {args : List Value} (hlen : args.length = f.arity) :
    Agree f.body (env.scope (f.params.zip args)) (env'.scope (f.params.zip args)) where
  vars x hx := Env.scope_get?_congr hlen fun hparam => h.vars x (.body hpart hf hparam hx)
  funs g hg := h.funs g (.body hpart hf hg)
  builtins := h.builtins
  maxCallDepth := h.maxCallDepth
  maxRollCount := h.maxRollCount
  callDepth := by
    simp only [Env.scope]
    rw [h.callDepth]

/-- One call, if bodies on which scopes agree are related. -/
theorem call_related [Host] (hS : Composed S) (h : Agree e env env') {name : String} {exprs : List Expr}
    (hpart : (Expr.call name exprs).Part e)
    (hbody : env.callDepth < env.maxCallDepth → ∀ f args, env.funs.get? name = some f →
      Agree f.body (env.scope args) (env'.scope args) →
      S _ (f.body.eval (env.scope args)) (f.body.eval (env'.scope args))) (args : List Value) :
    S _ (env.call name args) (env'.call name args) := by
  unfold Env.call Env.callWith
  rw [← h.funs name (.named hpart), ← h.builtins, ← h.maxCallDepth, ← h.callDepth]
  cases hf : env.funs.get? name with
  | none => cases env.builtins.get? name <;> exact hS.lift _
  | some f =>
    dsimp only
    by_cases hlen : args.length = f.arity
    · rw [if_neg (not_not_intro hlen), if_neg (not_not_intro hlen)]
      by_cases hd : env.maxCallDepth ≤ env.callDepth
      · rw [if_pos hd, if_pos hd]
        exact hS.lift _
      · rw [if_neg hd, if_neg hd]
        exact hbody (Int.not_le.mp hd) f _ hf (h.scope hpart hf hlen)
    · rw [if_pos hlen, if_pos hlen]
      exact hS.lift _

/-- Environments that agree on what an expression depends on evaluate it to what is related, if the
    rolls that it can come to are. -/
theorem related [Host] (hS : Composed S) (h : Agree e env env')
    (hroll : Rolls env.funs e → ∀ n k, S _ (env.rollOperands n k) (env.rollOperands n k)) :
    S _ (e.eval env) (e.eval env') := by
  induction env using Env.deeper_induct generalizing env' e with
  | step env ih =>
    rw [Expr.eval_eq, Expr.eval_eq]
    refine e.evalWith_related hS (fun x hx => h.vars x (.named hx)) (fun l r hd n k => ?_)
      fun name exprs hpart args => ?_
    · rw [← Env.rollOperands_congr h.maxRollCount]
      exact hroll (.dice hd) n k
    · refine h.call_related hS hpart (fun hdeep f args hf hbody => ?_) args
      exact ih hdeep args hbody fun hrolls => hroll (.body hpart hf hrolls)

/-- Environments that agree on what an expression depends on evaluate it alike. -/
theorem eval [Host] (h : Agree e env env') : e.eval env = e.eval env' :=
  h.related .eq fun _ _ _ => rfl

theorem call [Host] (h : Agree e env env') {name : String} {exprs : List Expr}
    (hpart : (Expr.call name exprs).Part e) (args : List Value) :
    env.call name args = env'.call name args :=
  h.call_related .eq hpart (fun _ _ _ _ hbody => hbody.eval) args

end Agree

/-! ### Closed sets of names -/

/-- The expression names no variables but these and the parameters, and calls no functions but
    these. -/
structure Expr.Within (vars funs : String → Prop) (params : List String) (e : Expr) : Prop where
  vars : ∀ x, (Expr.var x).Part e → vars x ∨ x ∈ params
  funs : ∀ g args, (Expr.call g args).Part e → funs g

section

variable {vars funs : String → Prop} {bound : Bindings Function} {e : Expr} {params : List String}

/-- What is read from outside of a closed set's bodies is in the set: a parameter that a body leaves
    to the functions it calls is in it, for they do not have it. -/
theorem Reads.of_within {x : String} (h : Reads bound x e) (he : e.Within vars funs params)
    (hbodies : ∀ g f, funs g → bound.get? g = some f → f.body.Within vars funs f.params)
    (hx : x ∉ params) : vars x := by
  induction h generalizing params with
  | named hpart => exact (he.vars x hpart).resolve_right hx
  | body hpart hf hparam _ ih => exact ih (hbodies _ _ (he.funs _ _ hpart) hf) hparam

theorem Calls.of_within {g : String} (h : Calls bound g e) (he : e.Within vars funs params)
    (hbodies : ∀ g f, funs g → bound.get? g = some f → f.body.Within vars funs f.params) :
    funs g := by
  induction h generalizing params with
  | named hpart => exact he.funs g _ hpart
  | body hpart hf _ ih => exact ih (hbodies _ _ (he.funs _ _ hpart) hf)

end

/-- An expression depends only on the bindings that it can reach. If a set of names is closed, which
    is to say that the expression and the bodies of the functions in it name nothing else, their own
    parameters excepted, then environments that agree on it evaluate the expression alike, to the
    same outcome with the same dice. -/
theorem eval_eq_of_within [Host] {vars funs : String → Prop} {e : Expr} {env env' : Env}
    (he : e.Within vars funs [])
    (hbodies : ∀ g f, funs g → env.funs.get? g = some f → f.body.Within vars funs f.params)
    (hvars : ∀ x, vars x → env.vars.get? x = env'.vars.get? x)
    (hfuns : ∀ g, funs g → env.funs.get? g = env'.funs.get? g)
    (builtins : env.builtins = env'.builtins) (maxCallDepth : env.maxCallDepth = env'.maxCallDepth)
    (maxRollCount : env.maxRollCount = env'.maxRollCount)
    (callDepth : env.callDepth = env'.callDepth) (d : Dice) : e.eval env d = e.eval env' d := by
  have agree : Agree e env env' := by
    refine ⟨fun x hx => ?_, fun g hg => ?_, builtins, maxCallDepth, maxRollCount, callDepth⟩
    · exact hvars x (hx.of_within he hbodies List.not_mem_nil)
    · exact hfuns g (hg.of_within he hbodies)
  exact congrFun agree.eval d

/-- As many dice as a parameter says, which is named like a variable of one environment only and is handed
    on to another function. -/
theorem pool_depends_on_sides :
    let same : Function := ⟨["n"], .var "n"⟩
    let pool : Function := ⟨["n"],
      .list [.op .dice (some (.var "n")) (some (.var "k")), .call "same" [.var "n"]]⟩
    let env : Env := { Env.initial with
      vars := Bindings.empty.bind "k" (.int 6)
      funs := (Bindings.empty.bind "same" same).bind "pool" pool }
    let env' : Env := { env with
      vars := (env.vars.bind "n" (.text "a")).bind "m" (.int 2)
      funs := env.funs.bind "m" ⟨[], .var "n"⟩ }
    let e : Expr := .call "pool" [.var "k"]
    ∀ d, (e.eval env d).outcome = .ok (.list [.list ((d.faces 6 6).1.map .int), .int 6]) ∧
      e.eval env d = e.eval env' d := by
  intro same pool env env' e d
  let reached (g : String) : Prop := g = "pool" ∨ g = "same"
  have within : e.Within (· = "k") reached [] := ⟨by simp [e], by simp +contextual [e, reached]⟩
  have hbodies : ∀ g f, reached g → env.funs.get? g = some f →
      f.body.Within (· = "k") reached f.params := by
    rintro g f (rfl | rfl) hf <;> cases hf
    · refine ⟨fun x hx => ?_, by simp +contextual [pool, reached]⟩
      simp [pool] at hx
      rcases hx with (rfl | rfl) | rfl <;> simp [pool]
    · exact ⟨by simp [same], by simp [same]⟩
  have hvars : ∀ x, x = "k" → env.vars.get? x = env'.vars.get? x := fun x hx => by rw [hx]; rfl
  have hfuns : ∀ g, reached g → env.funs.get? g = env'.funs.get? g := by
    rintro g (rfl | rfl) <;> rfl
  exact ⟨rfl, eval_eq_of_within within hbodies hvars hfuns rfl rfl rfl rfl d⟩

end DiceNotation
