import DiceNotation.Eval

/-!
Two inductions that all statements about evaluation share.

An expression is built from its operands, arguments and items, through lists and options of
expressions (`Expr.induct`); `Part` is the order that goes with it. An environment is followed by
the ones that are a call deeper, as long as calls are left (`Env.deeper_induct`). Together they
follow an evaluation: `eval_eq` answers the calls of an expression by the bodies of functions, each
in an environment a call deeper. A call is answered by the user function of its name, or else by the
one built in (`Env.call_of_user`, `Env.call_of_none`); whether the body of a user function is evaluated
is decided by the limit of calls (`Env.call_at_limit`, `Env.call_below_limit`).
-/

namespace DiceNotation

/-! ### Induction on expressions -/

/-- What holds of an expression if it holds of the expressions directly inside holds of all. -/
@[elab_as_elim, induction_eliminator]
theorem Expr.induct {P : Expr → Prop}
    (lit : ∀ v ok, P (.lit v ok))
    (list : ∀ items, (∀ e ∈ items, P e) → P (.list items))
    (var : ∀ name, P (.var name))
    (call : ∀ name args, (∀ e ∈ args, P e) → P (.call name args))
    (op : ∀ o l r, (∀ e ∈ l, P e) → (∀ e ∈ r, P e) → P (.op o l r))
    (range : P .range) (filter : P .filter) (foreign : ∀ kind, P (.foreign kind)) (e : Expr) :
    P e := by
  refine @Expr.rec P (fun es => ∀ e ∈ es, P e) (fun o => ∀ e ∈ o, P e)
    lit list var call op range filter foreign ?_ ?_ ?_ ?_ e
  · intro e he
    simp at he
  · intro head tail hhead htail e he
    rcases List.mem_cons.mp he with rfl | he
    · exact hhead
    · exact htail e he
  · intro e he
    simp at he
  · intro val hval e he
    obtain rfl := Option.some.inj he
    exact hval

section

variable [Host]

/-- Operators other than dice apply to the values of their operands. -/
theorem Expr.evalWith_op {env : Env} {call : String → List Value → Eval Value} {o : InfixOp}
    (h : o ≠ .dice) (l r : Option Expr) :
    (Expr.op o l r).evalWith env call = (do
      let a ← evalOptionWith env call l
      let b ← evalOptionWith env call r
      Eval.lift (reduce o a b)) := by
  rw [evalWith]
  exact h

/-- An operand that is there is evaluated. -/
theorem evalOptionWith_of_ok {env : Env} {call : String → List Value → Eval Value} {e : Expr}
    {d d' : Dice} {v : Value} {rolls : List Roll}
    (h : e.evalWith env call d = ⟨.ok v, d', rolls⟩) :
    evalOptionWith env call (some e) d = ⟨.ok (some v), d', rolls⟩ := by
  rw [evalOptionWith, Eval.bind_pure_apply, h]
  rfl

theorem evalOptionWith_of_error {env : Env} {call : String → List Value → Eval Value} {e : Expr}
    {d d' : Dice} {f : Failure} {rolls : List Roll}
    (h : e.evalWith env call d = ⟨.error f, d', rolls⟩) :
    evalOptionWith env call (some e) d = ⟨.error f, d', rolls⟩ := by
  rw [evalOptionWith, Eval.bind_error h]

/-- An operator with two operands applies to the values that they come to. -/
theorem Expr.evalWith_op_of_ok {env : Env} {call : String → List Value → Eval Value} {o : InfixOp}
    (ho : o ≠ .dice) {l r : Expr} {d d₁ d₂ : Dice} {v w : Value} {before later : List Roll}
    (hl : l.evalWith env call d = ⟨.ok v, d₁, before⟩)
    (hr : r.evalWith env call d₁ = ⟨.ok w, d₂, later⟩) :
    (Expr.op o (some l) (some r)).evalWith env call d =
      ⟨reduce o (some v) (some w), d₂, before ++ later⟩ := by
  rw [evalWith_op ho, Eval.bind_ok (evalOptionWith_of_ok hl), Eval.bind_ok (evalOptionWith_of_ok hr)]
  exact congrArg (Trace.mk _ _) (congrArg (before ++ ·) (List.append_nil later))

/-- An operator without a left operand. -/
theorem Expr.evalWith_op_right_of_ok {env : Env} {call : String → List Value → Eval Value}
    {o : InfixOp} (ho : o ≠ .dice) {r : Expr} {d d' : Dice} {w : Value} {rolls : List Roll}
    (hr : r.evalWith env call d = ⟨.ok w, d', rolls⟩) :
    (Expr.op o none (some r)).evalWith env call d = ⟨reduce o none (some w), d', rolls⟩ := by
  rw [evalWith_op ho, evalOptionWith, pure_bind, Eval.bind_ok (evalOptionWith_of_ok hr)]
  exact congrArg (Trace.mk _ _) (List.append_nil rolls)

/-- Expressions of two lists are evaluated one list after the other. -/
theorem evalAllWith_append (env : Env) (call : String → List Value → Eval Value)
    (es fs : List Expr) : evalAllWith env call (es ++ fs) = (do
      let vs ← evalAllWith env call es
      let ws ← evalAllWith env call fs
      return vs ++ ws) := by
  induction es with
  | nil => simp only [List.nil_append, evalAllWith, pure_bind, bind_pure]
  | cons e es ih =>
    simp only [List.cons_append, evalAllWith, ih, bind_assoc, pure_bind]

/-- There is one value for each expression. -/
theorem length_of_evalAllWith {env : Env} {call : String → List Value → Eval Value} :
    ∀ {es : List Expr} {d d' : Dice} {vs : List Value} {rolls : List Roll},
      evalAllWith env call es d = ⟨.ok vs, d', rolls⟩ → vs.length = es.length
  | [], _, _, _, _, h => by
    rw [evalAllWith] at h
    cases h
    rfl
  | e :: es, _, _, _, _, h => by
    rw [evalAllWith] at h
    obtain ⟨v, _, _, _, -, h, -⟩ := Eval.exists_of_bind_ok h
    obtain ⟨vs, _, _, _, hvs, h, -⟩ := Eval.exists_of_bind_ok h
    cases h
    rw [List.length_cons, List.length_cons, length_of_evalAllWith hvs]

/-- What two lists of expressions come to, taken apart. -/
theorem exists_of_evalAllWith_append {env : Env} {call : String → List Value → Eval Value}
    {es fs : List Expr} {d d' : Dice} {vs ws : List Value} {rolls : List Roll}
    (h : evalAllWith env call (es ++ fs) d = ⟨.ok (vs ++ ws), d', rolls⟩)
    (hlen : vs.length = es.length) :
    ∃ d₁ before later, evalAllWith env call es d = ⟨.ok vs, d₁, before⟩ ∧
      evalAllWith env call fs d₁ = ⟨.ok ws, d', later⟩ ∧ rolls = before ++ later := by
  rw [evalAllWith_append] at h
  obtain ⟨vs', d₁, before, after, hes, second, rfl⟩ := Eval.exists_of_bind_ok h
  obtain ⟨ws', d₂, later, last, hfs, both, rfl⟩ := Eval.exists_of_bind_ok second
  obtain ⟨joined, rfl, rfl⟩ := Trace.mk.inj both
  have hlen' : vs'.length = vs.length := (length_of_evalAllWith hes).trans hlen.symm
  obtain ⟨rfl, rfl⟩ := List.append_inj (Except.ok.inj joined) hlen'
  exact ⟨d₁, before, later, hes, hfs, by rw [List.append_nil]⟩

end

/-- An expression as a part of another one, or the whole of it. Ranges and filters have no parts. -/
inductive Expr.Part (p : Expr) : Expr → Prop
  | whole : Part p p
  | item {items e} : e ∈ items → Part p e → Part p (.list items)
  | arg {name args e} : e ∈ args → Part p e → Part p (.call name args)
  | left {o l r e} : e ∈ l → Part p e → Part p (.op o l r)
  | right {o l r e} : e ∈ r → Part p e → Part p (.op o l r)

theorem Expr.Part.trans {p q e : Expr} (hp : p.Part q) (hq : q.Part e) : p.Part e := by
  induction hq with
  | whole => exact hp
  | item h _ ih => exact .item h ih
  | arg h _ ih => exact .arg h ih
  | left h _ ih => exact .left h ih
  | right h _ ih => exact .right h ih

@[simp] theorem Expr.part_lit_iff {p : Expr} {v : Value} {ok : v.wellFormed = true} :
    p.Part (.lit v ok) ↔ p = .lit v ok :=
  ⟨fun h => by cases h; rfl, fun h => h ▸ .whole⟩

@[simp] theorem Expr.part_list_iff {p : Expr} {items : List Expr} :
    p.Part (.list items) ↔ p = .list items ∨ ∃ e ∈ items, p.Part e := by
  refine ⟨fun h => ?_, ?_⟩
  · cases h with
    | whole => exact .inl rfl
    | item he hp => exact .inr ⟨_, he, hp⟩
  · rintro (rfl | ⟨e, he, hp⟩)
    · exact .whole
    · exact .item he hp

@[simp] theorem Expr.part_var_iff {p : Expr} {x : String} : p.Part (.var x) ↔ p = .var x :=
  ⟨fun h => by cases h; rfl, fun h => h ▸ .whole⟩

@[simp] theorem Expr.part_call_iff {p : Expr} {name : String} {args : List Expr} :
    p.Part (.call name args) ↔ p = .call name args ∨ ∃ e ∈ args, p.Part e := by
  refine ⟨fun h => ?_, ?_⟩
  · cases h with
    | whole => exact .inl rfl
    | arg he hp => exact .inr ⟨_, he, hp⟩
  · rintro (rfl | ⟨e, he, hp⟩)
    · exact .whole
    · exact .arg he hp

@[simp] theorem Expr.part_op_iff {p : Expr} {o : InfixOp} {l r : Option Expr} :
    p.Part (.op o l r) ↔ p = .op o l r ∨ (∃ e ∈ l, p.Part e) ∨ ∃ e ∈ r, p.Part e := by
  refine ⟨fun h => ?_, ?_⟩
  · cases h with
    | whole => exact .inl rfl
    | left he hp => exact .inr (.inl ⟨_, he, hp⟩)
    | right he hp => exact .inr (.inr ⟨_, he, hp⟩)
  · rintro (rfl | ⟨e, he, hp⟩ | ⟨e, he, hp⟩)
    · exact .whole
    · exact .left he hp
    · exact .right he hp

/-! ### Induction on calls -/

/-- What holds of an environment if it holds of all that are a call deeper holds of all. At the
    limit there is none that is deeper. -/
theorem Env.deeper_induct {P : Env → Prop}
    (step : ∀ env : Env, (env.callDepth < env.maxCallDepth → ∀ bindings, P (env.scope bindings)) →
      P env) (env : Env) : P env := by
  generalize hn : env.callsLeft = n
  induction n generalizing env with
  | zero =>
    refine step env fun h => ?_
    simp only [Env.callsLeft] at hn
    omega
  | succ n ih =>
    refine step env fun _ bindings => ih _ ?_
    rw [Env.callsLeft_scope, hn, Nat.add_sub_cancel]

/-! ### What answers a call -/

section

variable [Host]

/-- A call that is answered by a user function. -/
def Env.callUser (env : Env) (name : String) (f : Function) (args : List Value) : Eval Value :=
  if args.length ≠ f.arity then
    Eval.fail (.arityMismatch name (.int f.arity) (.int args.length))
  else if env.maxCallDepth ≤ env.callDepth then
    Eval.lift (refuseBeyond env.maxCallDepth
      (.invalidOperation name ("call depth exceeded " ++ toString env.maxCallDepth)))
  else f.body.eval (env.scope (f.params.zip args))

/-- A call that is answered by no user function. -/
def Env.callBuiltin (env : Env) (name : String) (args : List Value) : Eval Value :=
  match env.builtins.get? name with
  | some b => Eval.lift (b.apply args)
  | none => Eval.fail (.undefinedIdentifier name)

theorem Env.call_of_user {env : Env} {name : String} {f : Function}
    (h : env.funs.get? name = some f) (args : List Value) :
    env.call name args = env.callUser name f args := by
  unfold Env.call Env.callWith
  rw [h]
  rfl

/-- A call of a user function with as many arguments as it takes is refused at the limit. -/
theorem Env.call_at_limit {env : Env} {name : String} {f : Function} {args : List Value}
    (hf : env.funs.get? name = some f) (hlen : args.length = f.arity)
    (hd : env.maxCallDepth ≤ env.callDepth) :
    env.call name args = Eval.lift (refuseBeyond env.maxCallDepth
      (.invalidOperation name ("call depth exceeded " ++ toString env.maxCallDepth))) := by
  rw [call_of_user hf, callUser, if_neg (not_not_intro hlen), if_pos hd]

/-- Below the limit such a call comes to what the body does in the scope of the arguments. -/
theorem Env.call_below_limit {env : Env} {name : String} {f : Function} {args : List Value}
    (hf : env.funs.get? name = some f) (hlen : args.length = f.arity)
    (hd : env.callDepth < env.maxCallDepth) :
    env.call name args = f.body.eval (env.scope (f.params.zip args)) := by
  rw [call_of_user hf, callUser, if_neg (not_not_intro hlen), if_neg (Int.not_le.mpr hd)]

theorem Env.call_of_none {env : Env} {name : String} (h : env.funs.get? name = none)
    (args : List Value) : env.call name args = env.callBuiltin name args := by
  unfold Env.call Env.callWith
  rw [h]
  rfl

end

end DiceNotation
