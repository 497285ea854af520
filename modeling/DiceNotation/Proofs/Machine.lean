import DiceNotation.Proofs.Parts

/-!
Evaluation one step at a time.

The machine does one thing after another: it looks at one node of an expression, answers one call or
takes up the last of the frames in which it keeps what is left to do. No step looks further than
that. A user call keeps a `body` frame until it returns, so the frames tell how deep the calls are
nested. What the machine comes to is what `Expr.eval` gives (`reaches_eval`): by induction on the
calls that are left it is so for bodies, and by induction on the expression for everything else.
-/

namespace DiceNotation

namespace Machine

/-- What is left to do with a value: the rest of some expressions, the items of a list or the
    arguments of the call that is named; the other operand of an operator, or the operator itself;
    nothing, if the value is that of a body. -/
inductive Frame where
  | rest (env : Env) (name? : Option String) (done : List Value) (es : List Expr)
  | count (env : Env) (sides : Option Expr)
  | sides (env : Env) (count : Int)
  | left (env : Env) (op : InfixOp) (right : Option Expr)
  | right (op : InfixOp) (left : Option Value)
  | body (caller : Env)

/-- What is being done. -/
inductive Control where
  | eval (env : Env) (e : Option Expr)
  | all (env : Env) (name? : Option String) (done : List Value) (es : List Expr)
  | call (env : Env) (name : String) (args : List Value)
  | give (o : Outcome (Option Value))

end Machine

/-- The state of the machine. The last frame comes first. -/
structure Machine where
  control : Machine.Control
  stack : List Machine.Frame
  dice : Dice
  rolls : List Roll

namespace Machine

/-- The machine before an expression. -/
def start (env : Env) (e : Expr) (d : Dice) : Machine := ⟨.eval env (some e), [], d, []⟩

/-- The machine after an evaluation. -/
def halted (t : Trace Value) : Machine := ⟨.give (t.outcome.map some), [], t.dice, t.rolls⟩

/-- Does something else next. -/
def turn (m : Machine) (c : Control) : Machine := { m with control := c }

/-- Does something first and keeps a frame for later. -/
def push (m : Machine) (f : Frame) (c : Control) : Machine :=
  { m with control := c, stack := f :: m.stack }

/-- Gives what comes of an evaluation. -/
def answer (m : Machine) (x : Eval (Option Value)) : Machine :=
  let t := x m.dice
  ⟨.give t.outcome, m.stack, t.dice, m.rolls ++ t.rolls⟩

theorem answer_lift (m : Machine) (o : Outcome (Option Value)) :
    m.answer (Eval.lift o) = m.turn (.give o) := by
  simp only [answer, Eval.lift, turn, List.append_nil]

/-! ### Steps -/

section

variable [Host]

/-- Looks at one node. -/
def visit (m : Machine) (env : Env) : Option Expr → Machine
  | none => m.turn (.give (.ok none))
  | some (.lit v _) => m.turn (.give (.ok (some v)))
  | some (.list items) => m.turn (.all env none [] items)
  | some (.var name) => m.turn (.give ((env.lookup name).map some))
  | some (.call name args) => m.turn (.all env (some name) [] args)
  | some (.op .dice l r) => m.push (.count env r) (.eval env l)
  | some (.op op l r) => m.push (.left env op r) (.eval env l)
  | some .range => m.turn (.give (fail (.unimplemented "range")))
  | some .filter => m.turn (.give (fail (.unimplemented "filter")))
  | some (.foreign kind) => m.turn (.give (fail (.malformed (kind.name ++ " is not an expression"))))

/-- Answers a call. The body of a user function is evaluated in its own scope. -/
def enter (m : Machine) (env : Env) (name : String) (args : List Value) : Machine :=
  match env.funs.get? name with
  | some f =>
    if args.length ≠ f.arity then
      m.turn (.give (fail (.arityMismatch name (.int f.arity) (.int args.length))))
    else if env.maxCallDepth ≤ env.callDepth then
      m.turn (.give ((refuseBeyond env.maxCallDepth
        (.invalidOperation name ("call depth exceeded " ++ toString env.maxCallDepth))).map some))
    else m.push (.body env) (.eval (env.scope (f.params.zip args)) (some f.body))
  | none =>
    match env.builtins.get? name with
    | some f => m.turn (.give ((f.apply args).map some))
    | none => m.turn (.give (fail (.undefinedIdentifier name)))

/-- Takes up a frame. -/
def resume (m : Machine) (w : Option Value) : Frame → Machine
  | .rest env name? done es => m.turn (.all env name? (done ++ w.toList) es)
  | .count env sides =>
    match diceOperand w with
    | .ok n => m.push (.sides env n) (.eval env sides)
    | .error f => m.turn (.give (.error f))
  | .sides env n =>
    match diceOperand w with
    | .ok k => m.answer (do return some (← env.rollOperands n k))
    | .error f => m.turn (.give (.error f))
  | .left env op right => m.push (.right op w) (.eval env right)
  | .right op left => m.turn (.give ((reduce op left w).map some))
  | .body _ => m.turn (.give (.ok w))

/-- One step. A failure drops the frames; without frames there is nothing left to do. -/
def step (m : Machine) : Machine :=
  match m.control, m.stack with
  | .eval env e, _ => m.visit env e
  | .all env name? done (e :: es), _ => m.push (.rest env name? done es) (.eval env (some e))
  | .all _ none done [], _ => m.turn (.give (.ok (some (.list done))))
  | .all env (some name) done [], _ => m.turn (.call env name done)
  | .call env name args, _ => m.enter env name args
  | .give (.ok w), f :: stack => { m with stack := stack }.resume w f
  | .give (.error _), _ :: stack => { m with stack := stack }
  | .give _, [] => m

/-- The state after some steps. -/
def run (m : Machine) : Nat → Machine
  | 0 => m
  | n + 1 => m.step.run n

theorem run_add (m : Machine) (i j : Nat) : m.run (i + j) = (m.run i).run j := by
  induction i generalizing m with
  | zero => rw [Nat.zero_add, run]
  | succ i ih => rw [Nat.succ_add, run, run, ih]

/-- After its halt the machine stays as it is. -/
theorem run_halted (t : Trace Value) : ∀ n, (halted t).run n = halted t
  | 0 => rfl
  | n + 1 => by
    have still : (halted t).step = halted t := by
      unfold step halted
      cases t.outcome <;> rfl
    rw [run, still, run_halted t n]

/-! ### What the machine comes to -/

/-- Some steps lead from one state to another. -/
def Reaches (m m' : Machine) : Prop := ∃ n, m.run n = m'

theorem Reaches.refl (m : Machine) : Reaches m m := ⟨0, rfl⟩

theorem Reaches.trans {m m' m'' : Machine} : Reaches m m' → Reaches m' m'' → Reaches m m'' := by
  rintro ⟨i, rfl⟩ ⟨j, rfl⟩
  exact ⟨i + j, m.run_add i j⟩

theorem Reaches.of_step {m m' : Machine} : Reaches m.step m' → Reaches m m' := by
  rintro ⟨n, h⟩
  exact ⟨n + 1, h⟩

/-- The machine gets from the control to what comes of the evaluation, with the frames it had. -/
def Computes (c : Control) (x : Eval (Option Value)) : Prop :=
  ∀ m : Machine, Reaches (m.turn c) (m.answer x)

/-- The machine gets from the frame, once a value is there, to what comes of the evaluation. -/
def Resumes (f : Frame) (x : Option Value → Eval (Option Value)) : Prop :=
  ∀ (m : Machine) (w : Option Value), Reaches (m.resume w f) (m.answer (x w))

theorem reaches_lift (m : Machine) (o : Outcome (Option Value)) :
    Reaches (m.turn (.give o)) (m.answer (Eval.lift o)) := m.answer_lift o ▸ .refl _

theorem reaches_some (m : Machine) (o : Outcome Value) :
    Reaches (m.turn (.give (o.map some))) (m.answer (do return some (← Eval.lift o))) := by
  cases o <;> exact m.reaches_lift _

/-- A frame takes up what comes of the control above it; a failure passes it. -/
theorem Computes.bind {c : Control} {f : Frame} {x : Eval (Option Value)}
    {y : Option Value → Eval (Option Value)} (hx : Computes c x) (hf : Resumes f y) (m : Machine) :
    Reaches (m.push f c) (m.answer (x >>= y)) := by
  refine (hx (m.push f c)).trans (.of_step ?_)
  rcases h : x m.dice with ⟨e | w, d, rolls⟩
  · simp only [answer, push, h, Eval.bind_error h]
    exact .refl _
  · have next := hf ⟨.give (.ok w), m.stack, d, m.rolls ++ rolls⟩ w
    simp only [answer, push, h, Eval.bind_ok h, step, List.append_assoc] at next ⊢
    exact next

theorem Computes.of_give {c : Control} {o : Outcome (Option Value)}
    (h : ∀ m : Machine, (m.turn c).step = m.turn (.give o)) : Computes c (Eval.lift o) :=
  fun m => .of_step (h m ▸ m.reaches_lift o)

variable {env : Env}

/-- The values of several expressions, with those that were there before, become a list or go to a
    call. -/
def finish (env : Env) (name? : Option String) (vs : List Value) : Eval (Option Value) :=
  match name? with
  | none => pure (some (.list vs))
  | some name => do return some (← env.call name vs)

theorem computes_all
    (hcall : ∀ name args, Computes (.call env name args) (do return some (← env.call name args)))
    (name? : Option String) : ∀ (es : List Expr) (done : List Value),
    (∀ e ∈ es, Computes (.eval env (some e)) (evalOptionWith env env.call (some e))) →
    Computes (.all env name? done es) (do
      let vs ← evalAllWith env env.call es
      finish env name? (done ++ vs))
  | [], done, _ => by
    rw [evalAllWith, pure_bind, List.append_nil]
    cases name? with
    | none => exact .of_give fun m => rfl
    | some name => exact fun m => .of_step (hcall name done m)
  | e :: es, done, h => by
    have first := h e (List.mem_cons_self ..)
    have resumes : Resumes (.rest env name? done es) (fun w => do
        let vs ← evalAllWith env env.call es
        finish env name? (done ++ w.toList ++ vs)) := fun m w =>
      computes_all hcall name? es _ (fun e' he' => h e' (List.mem_cons_of_mem _ he')) m
    intro m
    refine .of_step ?_
    have joined := first.bind resumes m
    rw [evalOptionWith] at joined
    rw [evalAllWith]
    simp only [bind_assoc, pure_bind, Option.toList, List.append_assoc, List.singleton_append]
      at joined ⊢
    exact joined

theorem computes_operand {o : Option Expr}
    (h : ∀ e ∈ o, Computes (.eval env (some e)) (evalOptionWith env env.call (some e))) :
    Computes (.eval env o) (evalOptionWith env env.call o) := by
  cases o with
  | none =>
    rw [evalOptionWith]
    exact .of_give fun m => rfl
  | some e => exact h e rfl

theorem resumes_sides (count : Int) : Resumes (.sides env count) (fun w => do
    let sides ← Eval.lift (diceOperand w)
    return some (← env.rollOperands count sides)) := by
  intro m w
  dsimp only [resume]
  cases diceOperand w with
  | error f => exact m.reaches_lift (.error f)
  | ok sides => exact .refl _

theorem resumes_count {r : Option Expr}
    (hr : Computes (.eval env r) (evalOptionWith env env.call r)) :
    Resumes (.count env r) (fun w => do
      let count ← Eval.lift (diceOperand w)
      let sides ← Eval.lift (diceOperand (← evalOptionWith env env.call r))
      return some (← env.rollOperands count sides)) := by
  intro m w
  dsimp only [resume]
  cases diceOperand w with
  | error f => exact m.reaches_lift (.error f)
  | ok count => exact hr.bind (resumes_sides count) m

theorem resumes_right (o : InfixOp) (a : Option Value) :
    Resumes (.right o a) (fun w => do return some (← Eval.lift (reduce o a w))) :=
  fun m w => m.reaches_some (reduce o a w)

theorem resumes_left (o : InfixOp) {r : Option Expr}
    (hr : Computes (.eval env r) (evalOptionWith env env.call r)) :
    Resumes (.left env o r) (fun w => do
      let b ← evalOptionWith env env.call r
      return some (← Eval.lift (reduce o w b))) := fun m w => hr.bind (resumes_right o w) m

/-- One expression, if the machine answers the calls in it. -/
theorem computes_eval
    (hcall : ∀ name args, Computes (.call env name args) (do return some (← env.call name args)))
    (e : Expr) : Computes (.eval env (some e)) (evalOptionWith env env.call (some e)) := by
  induction e with
  | lit v ok => exact .of_give fun m => rfl
  | list items ih =>
    intro m
    have all := computes_all hcall none items [] ih m
    rw [evalOptionWith, Expr.evalWith, bind_assoc]
    exact .of_step all
  | var name => exact fun m => .of_step (m.reaches_some (env.lookup name))
  | call name args ih =>
    intro m
    have all := computes_all hcall (some name) args [] ih m
    rw [evalOptionWith, Expr.evalWith, bind_assoc]
    exact .of_step all
  | op o l r ihl ihr =>
    intro m
    refine .of_step ?_
    have hl := computes_operand ihl
    have hr := computes_operand ihr
    by_cases hd : o = .dice
    · subst hd
      have joined := hl.bind (resumes_count hr) m
      rw [evalOptionWith, Expr.evalWith]
      simp only [bind_assoc] at joined ⊢
      exact joined
    · have joined := hl.bind (resumes_left o hr) m
      rw [evalOptionWith, Expr.evalWith_op hd]
      simp only [bind_assoc] at joined ⊢
      cases o <;> first | exact absurd rfl hd | exact joined
  | range => exact .of_give fun m => rfl
  | filter => exact .of_give fun m => rfl
  | foreign kind => exact .of_give fun m => rfl

/-! ### Calls -/

/-- One call, if the machine evaluates bodies a call deeper. -/
theorem computes_call (hbody : env.callDepth < env.maxCallDepth → ∀ bindings (body : Expr),
      Computes (.eval (env.scope bindings) (some body))
        (do return some (← body.eval (env.scope bindings))))
    (name : String) (args : List Value) :
    Computes (.call env name args) (do return some (← env.call name args)) := by
  intro m
  refine .of_step ?_
  show Reaches (m.enter env name args) _
  unfold enter Env.call Env.callWith
  cases hf : env.funs.get? name with
  | none =>
    dsimp only
    cases env.builtins.get? name with
    | none => exact m.reaches_lift _
    | some b => exact m.reaches_some (b.apply args)
  | some f =>
    dsimp only
    split
    · exact m.reaches_lift _
    split
    · exact m.reaches_some _
    · have body := hbody (by omega) (f.params.zip args) f.body
      have resumes : Resumes (.body env) pure := fun m w => m.reaches_lift (.ok w)
      have joined := body.bind resumes m
      rw [bind_pure] at joined
      exact joined

/-- The machine comes to a halt with what the expression evaluates to. -/
theorem reaches_eval (env : Env) (e : Expr) (d : Dice) :
    Reaches (start env e d) (halted (e.eval env d)) := by
  have computes : Computes (.eval env (some e)) (do return some (← e.eval env)) := by
    induction env using Env.deeper_induct generalizing e with
    | step env ih =>
      rw [Expr.eval_eq]
      exact computes_eval (computes_call fun h bindings body => ih h bindings body) e
  have h := computes (start env e d)
  simp only [answer, start, Eval.bind_pure_apply] at h
  exact h

end

end Machine

end DiceNotation
