import DiceNotation.Proofs.Dependence

/-!
Calls and substitution.

Instead of binding the parameters of a function over the variables of the caller, the arguments can be
written into its body, each as a literal in the place of its parameter (`Expr.subst`). Of arguments for
a parameter that is named twice the last one counts (`lastNamed?`). The body is evaluated a call deeper
and with more variables than the caller has, but what is left of it after the substitution reads no
parameter, and functions that are built in do not look at the environment. So if the body calls no
other functions, then both ways come to the same (`call_eq_substituted`).
-/

namespace DiceNotation

/-! ### Substitution -/

mutual

/-- The expression with other expressions in the place of variables. What is put in is left as it
    is. -/
def Expr.subst (σ : String → Option Expr) : Expr → Expr
  | .lit v ok => .lit v ok
  | .list items => .list (substAll σ items)
  | .var x => (σ x).getD (.var x)
  | .call name args => .call name (substAll σ args)
  | .op o l r => .op o (substOption σ l) (substOption σ r)
  | .range => .range
  | .filter => .filter
  | .foreign kind => .foreign kind

/-- The expressions with other expressions in the place of variables. -/
def substAll (σ : String → Option Expr) : List Expr → List Expr
  | [] => []
  | e :: es => e.subst σ :: substAll σ es

/-- The operand, if there is one, with other expressions in the place of variables. -/
def substOption (σ : String → Option Expr) : Option Expr → Option Expr
  | none => none
  | some e => some (e.subst σ)

end

section

variable [Host] {σ : String → Option Expr} {env env' : Env}
  {call call' : String → List Value → Eval Value}

theorem evalAllWith_subst : ∀ {es : List Expr},
    (∀ e ∈ es, (e.subst σ).evalWith env' call' = e.evalWith env call) →
    evalAllWith env' call' (substAll σ es) = evalAllWith env call es
  | [], _ => by rw [substAll, evalAllWith, evalAllWith]
  | e :: es, h => by
    rw [List.forall_mem_cons] at h
    rw [substAll, evalAllWith, evalAllWith, h.1, evalAllWith_subst h.2]

theorem evalOptionWith_subst {o : Option Expr}
    (h : ∀ e ∈ o, (e.subst σ).evalWith env' call' = e.evalWith env call) :
    evalOptionWith env' call' (substOption σ o) = evalOptionWith env call o := by
  cases o with
  | none => rw [substOption, evalOptionWith, evalOptionWith]
  | some e => rw [substOption, evalOptionWith, evalOptionWith, h e rfl]

/-- The expressions that are put in stand for the variables in whose place they are, so it makes no
    difference whether the variables are bound or substituted. -/
theorem Expr.evalWith_subst (hlimit : env.maxRollCount = env'.maxRollCount) (e : Expr)
    (hvar : ∀ x, (Expr.var x).Part e →
      ((Expr.var x).subst σ).evalWith env' call' = Eval.lift (env.lookup x))
    (hcall : ∀ name args, (Expr.call name args).Part e → call' name = call name) :
    (e.subst σ).evalWith env' call' = e.evalWith env call := by
  induction e with
  | lit v ok => rw [subst, evalWith, evalWith]
  | list items ih =>
    have all := evalAllWith_subst fun e he => ih e he (fun x h => hvar x (.item he h))
      fun name args h => hcall name args (.item he h)
    rw [subst, evalWith, evalWith, all]
  | var x => rw [hvar x .whole, evalWith]
  | call name args ih =>
    have all := evalAllWith_subst fun e he => ih e he (fun x h => hvar x (.arg he h))
      fun name args h => hcall name args (.arg he h)
    rw [subst, evalWith, evalWith, all, hcall name args .whole]
  | op o l r ihl ihr =>
    have hl := evalOptionWith_subst fun e he => ihl e he (fun x h => hvar x (.left he h))
      fun name args h => hcall name args (.left he h)
    have hr := evalOptionWith_subst fun e he => ihr e he (fun x h => hvar x (.right he h))
      fun name args h => hcall name args (.right he h)
    rw [subst]
    by_cases ho : o = .dice
    · subst ho
      rw [evalWith, evalWith, hl, hr]
      simp only [Env.rollOperands_congr hlimit]
    · rw [evalWith_op ho, evalWith_op ho, hl, hr]
  | range => rw [subst, evalWith, evalWith]
  | filter => rw [subst, evalWith, evalWith]
  | foreign kind => rw [subst, evalWith, evalWith]

end

/-! ### Arguments by name -/

/-- The last item that stands beside the name. -/
def lastNamed? {α : Type} (x : String) : List String → List α → Option α
  | name :: names, a :: as => (lastNamed? x names as).or (if name = x then some a else none)
  | _, _ => none

section

variable {α β : Type} {x : String}

theorem lastNamed?_map (f : α → β) : ∀ (names : List String) (as : List α),
    lastNamed? x names (as.map f) = (lastNamed? x names as).map f
  | [], _ => by simp [lastNamed?]
  | _ :: _, [] => by simp [lastNamed?]
  | name :: names, a :: as => by
    simp only [List.map_cons, lastNamed?, lastNamed?_map f names as]
    by_cases h : name = x <;> cases lastNamed? x names as <;> simp [h]

theorem lastNamed?_eq_lookup : ∀ (names : List String) (as : List α),
    lastNamed? x names as = (names.zip as).reverse.lookup x
  | [], _ => by simp [lastNamed?]
  | _ :: _, [] => by simp [lastNamed?]
  | name :: names, a :: as => by
    rw [lastNamed?, lastNamed?_eq_lookup names as, List.zip_cons_cons, List.reverse_cons,
      List.lookup_append, Bindings.lookup_cons_ite]
    simp [eq_comm]

end

/-- In the scope of a call a name means the last argument for it, or else what it means to the
    caller. -/
theorem Env.get?_scope (env : Env) (names : List String) (args : List Value) (x : String) :
    (env.scope (names.zip args)).vars.get? x = (lastNamed? x names args).or (env.vars.get? x) := by
  rw [lastNamed?_eq_lookup]
  exact Bindings.get?_bindAll x _ _

/-! ### Calls -/

/-- A well-formed value, as a literal holds it. -/
structure Literal where
  value : Value
  ok : value.wellFormed = true

/-- The literal as an expression. -/
def Literal.toExpr (a : Literal) : Expr := .lit a.value a.ok

/-- The body of a function with the arguments in the place of its parameters. -/
def Function.substituted (f : Function) (args : List Literal) : Expr :=
  f.body.subst fun x => (lastNamed? x f.params args).map Literal.toExpr

/-- An argument that is substituted comes to what its parameter is bound to. -/
theorem Literal.evalWith_subst [Host] (env : Env) (call : String → List Value → Eval Value)
    (params : List String) (args : List Literal) (x : String) :
    ((Expr.var x).subst fun x => (lastNamed? x params args).map toExpr).evalWith env call =
      Eval.lift ((env.scope (params.zip (args.map value))).lookup x) := by
  rw [Env.lookup, Env.get?_scope, lastNamed?_map, Expr.subst]
  cases lastNamed? x params args with
  | none => simp [Expr.evalWith, Env.lookup]
  | some a => simp [toExpr, Expr.evalWith, pure]

/-- Calling a function is substituting its arguments. If a user function calls no user function and a
    call is left, then a call with as many well-formed values as it has parameters comes to what its
    body comes to, where the call is made, with the last argument for each parameter written in its
    place: to the same outcome with the same dice and the same rolls. -/
theorem call_eq_substituted [Host] {env : Env} {name : String} {f : Function} {args : List Literal}
    (hf : env.funs.get? name = some f) (hlen : args.length = f.arity)
    (hdepth : env.callDepth < env.maxCallDepth)
    (hcalls : ∀ g es, (Expr.call g es).Part f.body → env.funs.get? g = none) (d : Dice) :
    env.call name (args.map Literal.value) d = (f.substituted args).eval env d := by
  let inner : Env := env.scope (f.params.zip (args.map Literal.value))
  have builtin : ∀ g es, (Expr.call g es).Part f.body → env.call g = inner.call g := by
    intro g es hpart
    have hg : env.funs.get? g = none := hcalls g es hpart
    have hg' : inner.funs.get? g = none := hg
    funext vs
    rw [Env.call_of_none hg, Env.call_of_none hg']
    rfl
  have limit : inner.maxRollCount = env.maxRollCount := rfl
  have body : (f.substituted args).evalWith env env.call = f.body.evalWith inner inner.call :=
    f.body.evalWith_subst limit
      (fun x _ => Literal.evalWith_subst env env.call f.params args x) builtin
  rw [Env.call_below_limit hf (by rw [List.length_map, hlen]) hdepth, Expr.eval_eq, Expr.eval_eq, body]

/-- A parameter that is named twice and hides a variable, one named like the function `sum`, which is
    called all the same, and dice in the body. -/
theorem call_with_hidden_names :
    let body (x size : Expr) : Expr :=
      .list [.op .dice (some x) (some size), .call "sum" [.var "y", x]]
    let f : Function := ⟨["x", "sum", "x"], body (.var "x") (.var "sum")⟩
    let env : Env := { Env.initial with
      vars := (Bindings.empty.bind "x" (.int 9)).bind "y" (.int 5)
      funs := Bindings.empty.bind "f" f }
    ∀ d, (env.call "f" [.int 1, .int 6, .int 2] d).outcome =
        .ok (.list [.list ((d.faces 2 6).1.map .int), .int 7]) ∧
      env.call "f" [.int 1, .int 6, .int 2] d =
        (body (.lit (.int 2) rfl) (.lit (.int 6) rfl)).eval env d := by
  intro body f env d
  have hcalls : ∀ g es, (Expr.call g es).Part f.body → env.funs.get? g = none := by
    intro g es hpart
    obtain rfl : g = "sum" := by simp [f, body] at hpart; exact hpart.1
    rfl
  have hf : env.funs.get? "f" = some f := rfl
  let args : List Literal := [⟨.int 1, rfl⟩, ⟨.int 6, rfl⟩, ⟨.int 2, rfl⟩]
  have hlen : args.length = f.arity := rfl
  exact ⟨rfl, call_eq_substituted hf hlen (by decide) hcalls d⟩

end DiceNotation
