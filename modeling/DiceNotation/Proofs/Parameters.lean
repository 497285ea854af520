import DiceNotation.Exec
import DiceNotation.Proofs.Arity
import DiceNotation.Proofs.Substitution

/-!
How the parameters of a function are bound.

The body of a function is evaluated where each parameter means the argument at its place, a parameter
that is named more than once the argument at the last of its places, and every other name what it
means to the caller (`Env.Binds`). Parameters are variables there and no functions: a call in the body
is answered by what the caller's functions and built-in functions are, under whatever name.

A call of a user function comes to what its body comes to in this scope, with the caller's dice, if
there are as many arguments as parameters and a call is left. Otherwise it is refused, and the dice
are not touched; the caller's variables are the same in any case (`call_binds_parameters`). At the
limit of calls not even a body that calls nothing is evaluated (`body_skipped_at_limit`).
-/

namespace DiceNotation

open Unlimited

/-! ### The last place of a parameter -/

/-- The name stands at the place and at no later one. -/
structure LastPlace (names : List String) (x : String) (i : Nat) : Prop where
  stands : names[i]? = some x
  last : ∀ j, names[j]? = some x → j ≤ i

theorem LastPlace.cons {names : List String} {x : String} {i : Nat} (h : LastPlace names x i)
    (name : String) : LastPlace (name :: names) x (i + 1) where
  stands := h.stands
  last
    | 0, _ => Nat.zero_le _
    | j + 1, hj => Nat.succ_le_succ (h.last j hj)

theorem lastPlace_head {names : List String} {x : String} (h : x ∉ names) :
    LastPlace (x :: names) x 0 where
  stands := rfl
  last
    | 0, _ => Nat.le_refl 0
    | _ + 1, hj => absurd (List.mem_of_getElem? (l := names) hj) h

section

variable {α : Type} {x : String}

theorem lastNamed?_of_not_mem : ∀ {names : List String} (as : List α), x ∉ names →
    lastNamed? x names as = none
  | [], _, _ => by simp [lastNamed?]
  | _ :: _, [], _ => by simp [lastNamed?]
  | name :: names, a :: as, h => by
    obtain ⟨head, tail⟩ := not_or.mp (mt List.mem_cons.mpr h)
    rw [lastNamed?, lastNamed?_of_not_mem as tail, if_neg (Ne.symm head)]
    rfl

/-- The last item beside a name is the one at its last place. -/
theorem exists_lastPlace : ∀ {names : List String} {as : List α}, as.length = names.length →
    x ∈ names → ∃ i a, LastPlace names x i ∧ as[i]? = some a ∧ lastNamed? x names as = some a
  | [], _, _, hx => nomatch hx
  | _ :: _, [], hlen, _ => nomatch hlen
  | name :: names, a :: as, hlen, hx => by
    by_cases tail : x ∈ names
    · obtain ⟨i, b, place, hb, hlast⟩ := exists_lastPlace (Nat.succ.inj hlen) tail
      refine ⟨i + 1, b, place.cons name, hb, ?_⟩
      rw [lastNamed?, hlast]
      rfl
    · obtain rfl : x = name := (List.mem_cons.mp hx).resolve_right tail
      refine ⟨0, a, lastPlace_head tail, rfl, ?_⟩
      rw [lastNamed?, lastNamed?_of_not_mem as tail, if_pos rfl]
      rfl

end

/-! ### Scopes -/

/-- The inner environment is that of a body with these parameters and arguments, called from the outer
    one. -/
structure Env.Binds (outer inner : Env) (params : List String) (args : List Value) : Prop where
  param : ∀ x ∈ params, ∃ i a, LastPlace params x i ∧ args[i]? = some a ∧ inner.lookup x = .ok a
  other : ∀ x, x ∉ params → inner.lookup x = outer.lookup x
  funs : inner.funs = outer.funs
  builtins : inner.builtins = outer.builtins
  maxCallDepth : inner.maxCallDepth = outer.maxCallDepth
  maxRollCount : inner.maxRollCount = outer.maxRollCount
  callDepth : inner.callDepth = outer.callDepth + 1

theorem Env.binds_scope (env : Env) {params : List String} {args : List Value}
    (hlen : args.length = params.length) :
    env.Binds (env.scope (params.zip args)) params args where
  param x hx := by
    obtain ⟨i, a, place, ha, hlast⟩ := exists_lastPlace hlen hx
    refine ⟨i, a, place, ha, ?_⟩
    rw [lookup, get?_scope, hlast]
    rfl
  other x hx := by
    rw [lookup, get?_scope, lastNamed?_of_not_mem args hx]
    rfl
  funs := rfl
  builtins := rfl
  maxCallDepth := rfl
  maxRollCount := rfl
  callDepth := rfl

/-- A call in a body is answered by the caller's functions, parameters of that name or not. -/
theorem Env.Binds.call_eq {outer inner : Env} {params : List String} {args : List Value}
    (h : outer.Binds inner params args) (g : String) (vs : List Value) :
    (∀ f, outer.funs.get? g = some f → inner.call g vs = inner.callUser g f vs) ∧
      (outer.funs.get? g = none → inner.call g vs = outer.callBuiltin g vs) := by
  refine ⟨fun f hf => call_of_user (h.funs ▸ hf) vs, fun hg => ?_⟩
  rw [call_of_none (h.funs ▸ hg), callBuiltin, callBuiltin, h.builtins]

/-! ### Calls -/

/-- A call of a user function. It fails with the error about the number of its arguments if and only if this is
    not the number of its parameters, repeated ones counted each time. With as many arguments as
    parameters it comes, below the limit of calls, to what the body comes to with the same dice, in a
    scope that binds the parameters and leaves every function as it is; at the limit it is refused.
    The caller's environment is the same afterwards. All other names mean in the scope what they mean to the
    caller, its own parameters included, and so they leak into the functions that a body calls: when this
    makes a difference is said by `call_scope_iff`. -/
theorem call_binds_parameters {env : Env} {name : String} {f : Function}
    (hf : env.funs.get? name = some f) (args : List Value) (d : Dice) :
    ((env.call name args d).outcome =
        fail (.arityMismatch name (.int f.params.length) (.int args.length)) ↔
      args.length ≠ f.params.length) ∧
    (args.length = f.params.length → env.callDepth < env.maxCallDepth →
      ∃ inner, env.Binds inner f.params args ∧ env.call name args d = f.body.eval inner d ∧
        ∀ g vs, (∀ h, env.funs.get? g = some h → inner.call g vs = inner.callUser g h vs) ∧
          (env.funs.get? g = none → inner.call g vs = env.callBuiltin g vs)) ∧
    (args.length = f.params.length → env.maxCallDepth ≤ env.callDepth →
      env.call name args d = ⟨fail (.invalidOperation name
        ("call depth exceeded " ++ toString env.maxCallDepth)), d, []⟩) ∧
    (Eval.exec (env.call name args) env d).env = env := by
  refine ⟨Env.call_arityMismatch_iff hf args d, fun hlen below => ?_, fun hlen atLimit => ?_, rfl⟩
  · have binds := env.binds_scope hlen
    refine ⟨_, binds, ?_, binds.call_eq⟩
    rw [Env.call_below_limit hf hlen below]
  · rw [Env.call_at_limit hf hlen atLimit]
    rfl

/-- A parameter that is named twice, hides a variable of the caller and has the name of a function that
    the body calls. -/
theorem repeated_parameter_bound :
    let f : Function :=
      ⟨["x", "sum", "x"], .call "sum" [.list [.var "x", .var "sum", .var "y"]]⟩
    let env : Env := { Env.initial with
      vars := (Bindings.empty.bind "x" (.int 100)).bind "y" (.int 1000)
      funs := Bindings.empty.bind "f" f }
    let args : List Value := [.int 1, .int 20, .int 3]
    env.funs.get? "f" = some f ∧ args.length = f.params.length ∧ env.callDepth < env.maxCallDepth ∧
      ∀ d, (env.call "f" args d).outcome = .ok (.int 1023) ∧
        (env.call "f" [.int 1, .int 20] d).outcome = fail (.arityMismatch "f" (.int 3) (.int 2)) ∧
        ∃ inner, env.Binds inner f.params args ∧ env.call "f" args d = f.body.eval inner d := by
  intro f env args
  have hf : env.funs.get? "f" = some f := rfl
  have hlen : args.length = f.params.length := rfl
  have below : env.callDepth < env.maxCallDepth := by decide
  refine ⟨hf, hlen, below, fun d => ⟨rfl, ?_, ?_⟩⟩
  · exact (call_binds_parameters hf [.int 1, .int 20] d).1.mpr (by decide)
  · obtain ⟨inner, binds, body, -⟩ := (call_binds_parameters hf args d).2.1 hlen below
    exact ⟨inner, binds, body⟩

/-- A body is not evaluated whenever there are as many arguments as parameters: at the limit of calls
    the call is refused. -/
theorem body_skipped_at_limit : ¬∀ (env : Env) (name : String) (f : Function) (args : List Value)
    (d : Dice), env.funs.get? name = some f → args.length = f.params.length →
    ∃ inner, env.Binds inner f.params args ∧ env.call name args d = f.body.eval inner d := by
  intro h
  let f : Function := ⟨["x"], .var "x"⟩
  let env : Env := { Env.initial with funs := Bindings.empty.bind "f" f, maxCallDepth := 0 }
  obtain ⟨inner, binds, body⟩ := h env "f" f [.int 1] (Seed.int 0).dice rfl rfl
  obtain ⟨i, a, -, -, hx⟩ := binds.param "x" (by simp [f])
  rw [Expr.eval_eq, Expr.evalWith, hx] at body
  have refused := congrArg Trace.outcome body
  cases refused

end DiceNotation
