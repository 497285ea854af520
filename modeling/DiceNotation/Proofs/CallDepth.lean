import DiceNotation.Proofs.Parts

/-!
Where the limit of calls cuts.

Each body is evaluated a call deeper than its function was called, so a chain of functions that call
one another goes down by one at each of them (`Links.call_eq`), and the limit refuses the call for which
there is no depth left: the first of the chain that is called at the limit. An argument is evaluated
before its function is called, where the call is written, so calls that are nested in arguments do not
add up (`eval_nested`). Together they fix which chains come to their end, and which call is refused
otherwise (`depth_limit_cuts`).
-/

namespace DiceNotation

open Unlimited

/-! ### One call deeper -/

/-- The environment some calls deeper, with the same variables. -/
def Env.sunk (env : Env) (n : Nat) : Env := { env with callDepth := env.callDepth + n }

/-- The refusal of a call that finds no depth left. -/
def Env.tooDeep (env : Env) (name : String) : Eval Value :=
  Eval.fail (.invalidOperation name ("call depth exceeded " ++ toString env.maxCallDepth))

namespace Env

variable {env : Env} {name : String}

@[simp] theorem sunk_zero (env : Env) : env.sunk 0 = env := by simp [sunk]

theorem sunk_scope (env : Env) (n : Nat) : (env.sunk n).scope [] = env.sunk (n + 1) := by
  simp [scope, sunk, Bindings.bindAll, Int.add_assoc]

/-- A function without parameters has its body evaluated a call deeper. -/
theorem call_nullary {body : Expr} (h : env.funs.get? name = some ⟨[], body⟩)
    (hd : env.callDepth < env.maxCallDepth) : env.call name [] = body.eval (env.scope []) :=
  call_below_limit h rfl hd

end Env

theorem Expr.eval_call_nil (env : Env) (name : String) :
    (Expr.call name []).eval env = env.call name [] := by
  rw [eval_eq, evalWith, evalAllWith, pure_bind]

/-! ### Chains -/

/-- The first `n` of the functions, counted from one, have no parameters, and each calls the next. -/
def Links (funs : Bindings Function) (f : Nat → String) (n : Nat) : Prop :=
  ∀ i, 1 ≤ i → i ≤ n → funs.get? (f i) = some ⟨[], .call (f (i + 1)) []⟩

/-- A chain of functions without parameters: each of the first `k` but the last calls the next one, and
    the last gives the value. -/
structure Chain (funs : Bindings Function) (f : Nat → String) (k : Nat) (v : Value) : Prop where
  pos : 1 ≤ k
  links : ∀ i, 1 ≤ i → i < k → funs.get? (f i) = some ⟨[], .call (f (i + 1)) []⟩
  last : ∃ ok, funs.get? (f k) = some ⟨[], .lit v ok⟩

section

variable {env : Env} {f : Nat → String} {n k : Nat} {v : Value}

/-- As long as there is depth left, to call the first function of a chain is to call a later one as
    many calls deeper. -/
theorem Links.call_eq (h : Links env.funs f n) (hn : env.callDepth + n ≤ env.maxCallDepth) :
    env.call (f 1) [] = (env.sunk n).call (f (n + 1)) [] := by
  induction n with
  | zero => simp
  | succ n ih =>
    have shorter : Links env.funs f n := fun i hi hle => h i hi (by omega)
    have next : (env.sunk n).funs.get? (f (n + 1)) = some ⟨[], .call (f (n + 1 + 1)) []⟩ :=
      h (n + 1) (by omega) (by omega)
    have deep : (env.sunk n).callDepth < (env.sunk n).maxCallDepth := by
      simp only [Env.sunk]
      omega
    rw [ih shorter (by omega), Env.call_nullary next deep, Env.sunk_scope, Expr.eval_call_nil]

/-- The call that is refused is the first one at the limit. -/
theorem Links.call_tooDeep {g : Function}
    (h : Links env.funs f (env.maxCallDepth - env.callDepth).toNat)
    (hlast : env.funs.get? (f (max 1 (env.maxCallDepth - env.callDepth + 1)).toNat) = some g)
    (harity : g.arity = 0) :
    env.call (f 1) [] =
      env.tooDeep (f (max 1 (env.maxCallDepth - env.callDepth + 1)).toNat) := by
  have index : (max 1 (env.maxCallDepth - env.callDepth + 1)).toNat =
      (env.maxCallDepth - env.callDepth).toNat + 1 := by omega
  rw [index] at hlast ⊢
  by_cases hd : env.callDepth ≤ env.maxCallDepth
  · rw [h.call_eq (by omega)]
    have limit : (env.sunk (env.maxCallDepth - env.callDepth).toNat).maxCallDepth ≤
        (env.sunk (env.maxCallDepth - env.callDepth).toNat).callDepth := by
      simp only [Env.sunk]
      omega
    exact Env.call_at_limit hlast harity.symm limit
  · have none_left : (env.maxCallDepth - env.callDepth).toNat = 0 := by omega
    rw [none_left] at hlast ⊢
    exact Env.call_at_limit hlast harity.symm (by omega)

theorem Chain.links_of_lt (h : Chain env.funs f k v) (hn : n < k) : Links env.funs f n :=
  fun i hi hle => h.links i hi (by omega)

/-- All functions of a chain take no arguments. -/
theorem Chain.exists_nullary (h : Chain env.funs f k v) {i : Nat} (hi : 1 ≤ i) (hk : i ≤ k) :
    ∃ g, env.funs.get? (f i) = some g ∧ g.arity = 0 := by
  rcases Nat.lt_or_eq_of_le hk with hlt | rfl
  · exact ⟨_, h.links i hi hlt, rfl⟩
  · obtain ⟨ok, hlast⟩ := h.last
    exact ⟨_, hlast, rfl⟩

/-- A chain that fits under the limit comes to its value. -/
theorem Chain.call_eq (h : Chain env.funs f k v) (hk : env.callDepth + k ≤ env.maxCallDepth) :
    env.call (f 1) [] = pure v := by
  obtain ⟨n, rfl⟩ : ∃ n, k = n + 1 := ⟨k - 1, by have := h.pos; omega⟩
  obtain ⟨ok, hlast⟩ := h.last
  have hlast : (env.sunk n).funs.get? (f (n + 1)) = some ⟨[], .lit v ok⟩ := hlast
  have deep : (env.sunk n).callDepth < (env.sunk n).maxCallDepth := by
    simp only [Env.sunk]
    omega
  rw [(h.links_of_lt (Nat.lt_succ_self n)).call_eq (by omega), Env.call_nullary hlast deep]
  rw [Expr.eval_eq, Expr.evalWith]

/-- A chain that does not fit is cut at the function that is called at the limit. -/
theorem Chain.call_tooDeep (h : Chain env.funs f k v) (hk : env.maxCallDepth < env.callDepth + k) :
    env.call (f 1) [] =
      env.tooDeep (f (max 1 (env.maxCallDepth - env.callDepth + 1)).toNat) := by
  have pos := h.pos
  obtain ⟨g, hg, harity⟩ :=
    h.exists_nullary (i := (max 1 (env.maxCallDepth - env.callDepth + 1)).toNat) (by omega) (by omega)
  exact (h.links_of_lt (by omega)).call_tooDeep hg harity

end

/-- A function that does nothing but call itself is a chain without an end. -/
theorem call_itself_tooDeep {env : Env} {g : String}
    (h : env.funs.get? g = some ⟨[], .call g []⟩) : env.call g [] = env.tooDeep g := by
  have links : Links env.funs (fun _ => g) (env.maxCallDepth - env.callDepth).toNat :=
    fun _ _ _ => h
  exact links.call_tooDeep h rfl

/-! ### Arguments -/

/-- Calls of a function, each with the next one for its only argument. -/
def Expr.nested (g : String) : Nat → Expr → Expr
  | 0, e => e
  | k + 1, e => .call g [e.nested g k]

/-- Calls of the identity that are nested in arguments are all made from the same depth. -/
theorem Expr.eval_nested {env : Env} {g x : String} (hg : env.funs.get? g = some ⟨[x], .var x⟩)
    (hd : env.callDepth < env.maxCallDepth) (v : Value) (ok : v.wellFormed = true) (k : Nat) :
    ((Expr.lit v ok).nested g k).eval env = pure v := by
  induction k with
  | zero => rw [nested, eval_eq, evalWith]
  | succ k ih =>
    have bound : (env.scope [(x, v)]).lookup x = .ok v := by
      simp [Env.lookup, Env.scope, Bindings.bindAll]
    have answer : env.call g [v] = pure v := by
      rw [Env.call_below_limit hg rfl hd, eval_eq, evalWith]
      exact congrArg Eval.lift bound
    rw [eval_eq] at ih
    rw [nested, eval_eq, evalWith, evalAllWith, evalAllWith, ih]
    simp [answer]

/-- The limit cuts at exactly the right call. Of a chain of `k` functions that call one another, the
    last of which gives a value, the first comes to this value if as many calls fit between the depth
    where it is called and the limit; otherwise the call is refused of the function that has as many
    before it as do fit, or of the first one if nothing fits. A function that only calls itself is
    always refused. Calls of the identity within arguments of one another need the depth of one call
    only, however many they are. -/
theorem depth_limit_cuts (env : Env) (v : Value) (d : Dice) :
    (∀ f k, Chain env.funs f k v →
      (env.callDepth + k ≤ env.maxCallDepth → env.call (f 1) [] d = ⟨.ok v, d, []⟩) ∧
      (env.maxCallDepth < env.callDepth + k → ∃ i : Nat,
        i = max 1 (env.maxCallDepth - env.callDepth + 1) ∧
        env.call (f 1) [] d = ⟨fail (.invalidOperation (f i)
          ("call depth exceeded " ++ toString env.maxCallDepth)), d, []⟩)) ∧
    (∀ g, env.funs.get? g = some ⟨[], .call g []⟩ →
      env.call g [] d = ⟨fail (.invalidOperation g
        ("call depth exceeded " ++ toString env.maxCallDepth)), d, []⟩) ∧
    (∀ g x ok, env.funs.get? g = some ⟨[x], .var x⟩ → env.callDepth < env.maxCallDepth →
      ∀ k, ((Expr.lit v ok).nested g k).eval env d = ⟨.ok v, d, []⟩) := by
  refine ⟨?_, ?_, ?_⟩
  · intro f k h
    refine ⟨?_, ?_⟩
    · intro hk
      rw [h.call_eq hk]
      rfl
    · intro hk
      refine ⟨(max 1 (env.maxCallDepth - env.callDepth + 1)).toNat, by omega, ?_⟩
      rw [h.call_tooDeep hk]
      rfl
  · intro g hg
    rw [call_itself_tooDeep hg]
    rfl
  · intro g x ok hg hd k
    rw [Expr.eval_nested hg hd v ok k]
    rfl

/-- Two calls fit under a limit of two. Of three the last is refused, though its body is a literal. -/
theorem third_call_cut :
    let f : Nat → String := fun i => if i = 1 then "a" else if i = 2 then "b" else "c"
    let env : Env := { Env.initial with
      funs := ((Bindings.empty.bind "c" ⟨[], .lit (.int 7) rfl⟩).bind "b" ⟨[], .call "c" []⟩).bind
        "a" ⟨[], .call "b" []⟩
      maxCallDepth := 2 }
    Chain env.funs f 3 (.int 7) ∧ ∀ d, env.call "b" [] d = ⟨.ok (.int 7), d, []⟩ ∧
      env.call "a" [] d = ⟨fail (.invalidOperation "c" "call depth exceeded 2"), d, []⟩ := by
  intro f env
  have chain : Chain env.funs f 3 (.int 7) := by
    refine ⟨by decide, ?_, rfl, rfl⟩
    intro i hi hlt
    obtain rfl | rfl : i = 1 ∨ i = 2 := by omega
    · rfl
    · rfl
  have short : Chain env.funs (fun i => f (i + 1)) 2 (.int 7) := by
    refine ⟨by decide, ?_, chain.last⟩
    intro i hi hlt
    exact chain.links (i + 1) (by omega) (by omega)
  refine ⟨chain, ?_⟩
  intro d
  obtain ⟨chains, -, -⟩ := depth_limit_cuts env (.int 7) d
  obtain ⟨i, hi, cut⟩ := (chains f 3 chain).2 (by decide)
  obtain rfl : i = 3 := Int.ofNat.inj hi
  exact ⟨(chains _ 2 short).1 (by decide), cut⟩

end DiceNotation
