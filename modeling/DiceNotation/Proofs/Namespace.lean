import DiceNotation.Proofs.History
import DiceNotation.Proofs.Parts

/-!
Variables and functions as one namespace.

What a name means is decided by the last change that touches it, whatever else has been done to the
session since. The changes are those that are made directly, those of statements that succeed, and
the reset, which touches every name (`Session.history`). One change after another keeps the tables
in step with them (`InStep.apply`), and so does everything that can be done to a session
(`InStep.acts`); what a lookup gives and what answers a call is then read off the last change
(`last_touch_decides`).
-/

namespace DiceNotation

/-! ### The last change of a name -/

/-- The change decides what the name means from then on. -/
def Mutation.touches (x : String) : Mutation → Bool
  | .assign name _ | .declare name _ | .delete name => name == x
  | .clear => true

/-- The last of the changes that touches the name. -/
def lastTouch? (x : String) (ms : List Mutation) : Option Mutation :=
  (ms.filter (·.touches x)).getLast?

/-- The value that the change binds. -/
def Mutation.value? : Mutation → Option Value
  | .assign _ v => some v
  | _ => none

/-- The function that the change binds. -/
def Mutation.function? : Mutation → Option Function
  | .declare _ f => some f
  | _ => none

theorem lastTouch?_concat (x : String) (ms : List Mutation) (m : Mutation) :
    lastTouch? x (ms ++ [m]) = if m.touches x then some m else lastTouch? x ms := by
  unfold lastTouch?
  rw [List.filter_append]
  by_cases h : m.touches x <;> simp [h]

theorem touches_of_lastTouch? {x : String} {ms : List Mutation} {m : Mutation}
    (h : lastTouch? x ms = some m) : m.touches x = true :=
  (List.mem_filter.mp (List.mem_of_getLast? h)).2

/-- A reading of changes that finds `a` in just one of all the changes of a name finds it in the last
    of several if and only if that is this one. -/
theorem lastTouch?_bind_eq_some_iff {α : Type} {x : String} {ms : List Mutation}
    {read : Mutation → Option α} {change : Mutation} {a : α}
    (h : ∀ m, m.touches x = true → (read m = some a ↔ m = change)) :
    (lastTouch? x ms).bind read = some a ↔ lastTouch? x ms = some change := by
  refine ⟨fun hread => ?_, fun hlast => ?_⟩
  · obtain ⟨m, hlast, hm⟩ := Option.bind_eq_some_iff.mp hread
    rw [hlast, (h m (touches_of_lastTouch? hlast)).mp hm]
  · rw [hlast]
    exact (h _ (touches_of_lastTouch? hlast)).mpr rfl

theorem Mutation.value?_eq_some_iff {m : Mutation} {x : String} (h : m.touches x = true)
    {v : Value} : m.value? = some v ↔ m = .assign x v := by
  cases m with
  | assign name w =>
    obtain rfl := beq_iff_eq.mp h
    simp [value?]
  | _ => simp [value?]

theorem Mutation.function?_eq_some_iff {m : Mutation} {x : String} (h : m.touches x = true)
    {f : Function} : m.function? = some f ↔ m = .declare x f := by
  cases m with
  | declare name g =>
    obtain rfl := beq_iff_eq.mp h
    simp [function?]
  | _ => simp [function?]

/-! ### Changes of the tables -/

/-- A change that touches a name unbinds it as a variable, unless it binds it as one. -/
theorem Env.get?_vars_apply (env : Env) (m : Mutation) (x : String) :
    (env.apply m).vars.get? x = if m.touches x then m.value? else env.vars.get? x := by
  cases m with
  | assign name v | declare name f | delete name =>
    by_cases hx : x = name
    · simp [apply, Mutation.touches, Mutation.value?, hx]
    · simp [apply, Mutation.touches, hx, Ne.symm hx]
  | clear => rfl

/-- A change that touches a name unbinds it as a function, unless it binds it as one. -/
theorem Env.get?_funs_apply (env : Env) (m : Mutation) (x : String) :
    (env.apply m).funs.get? x = if m.touches x then m.function? else env.funs.get? x := by
  cases m with
  | assign name v | declare name f | delete name =>
    by_cases hx : x = name
    · simp [apply, Mutation.touches, Mutation.function?, hx]
    · simp [apply, Mutation.touches, hx, Ne.symm hx]
  | clear => rfl

theorem Env.builtins_apply (env : Env) (m : Mutation) : (env.apply m).builtins = env.builtins := by
  cases m <;> rfl

/-- Every name means in the environment what its last change has made of it, and the functions built
    in are the given ones. -/
structure InStep (builtins : Bindings Builtin) (ms : List Mutation) (env : Env) : Prop where
  vars : ∀ x, env.vars.get? x = (lastTouch? x ms).bind Mutation.value?
  funs : ∀ x, env.funs.get? x = (lastTouch? x ms).bind Mutation.function?
  builtins : env.builtins = builtins

namespace InStep

variable {builtins : Bindings Builtin} {ms : List Mutation} {env : Env}

/-- One change more. -/
theorem apply (h : InStep builtins ms env) (m : Mutation) :
    InStep builtins (ms ++ [m]) (env.apply m) := by
  refine ⟨fun x => ?_, fun x => ?_, (env.builtins_apply m).trans h.builtins⟩
  · rw [env.get?_vars_apply, lastTouch?_concat]
    split
    · rfl
    · exact h.vars x
  · rw [env.get?_funs_apply, lastTouch?_concat]
    split
    · rfl
    · exact h.funs x

/-- A reset does to names what clearing does. -/
theorem reset (h : InStep builtins ms env) : InStep builtins (ms ++ [.clear]) env.reset :=
  let cleared := h.apply .clear
  ⟨cleared.vars, cleared.funs, cleared.builtins⟩

end InStep

theorem Env.lookup_eq_ok_iff {env : Env} {x : String} {v : Value} :
    env.lookup x = .ok v ↔ env.vars.get? x = some v := by
  unfold Env.lookup
  cases env.vars.get? x with
  | none => exact ⟨fun h => (nomatch h), fun h => (nomatch h)⟩
  | some w => exact ⟨fun h => congrArg some (Except.ok.inj h), fun h => by rw [Option.some.inj h]⟩

/-! ### The changes that commands make -/

section

variable [Host]

/-- The change that a command makes: that of a statement that succeeds. -/
def Command.change? (env : Env) (d : Dice) : Command → Option Mutation
  | .statement (.assign x e) =>
    match (e.eval env d).outcome with
    | .ok v => some (.assign x v)
    | .error _ => none
  | .statement (.define x f) => some (.declare x f)
  | .statement (.delete x) => some (.delete x)
  | .statement .clear => some .clear
  | _ => none

/-- The changes that commands make in their turns. A defect ends them all. -/
def runChanges (env : Env) (d : Dice) : List Command → List Mutation
  | [] => []
  | c :: cs =>
    let step := c.exec env d
    match step.outcome with
    | .error (.defect _) => []
    | _ => (c.change? env d).toList ++ runChanges step.env step.dice cs

theorem Command.change?_statement (s : Stmt) (env : Env) (d : Dice) :
    (statement s).change? env d = (s.mutation env d).outcome.toOption := by
  cases s with
  | assign x e =>
    have h := Eval.bind_pure_apply (e.eval env) (Mutation.assign x) d
    rw [Stmt.mutation, h, change?]
    cases (e.eval env d).outcome <;> rfl
  | _ => rfl

/-- A command makes a change if and only if it is a statement that succeeds. -/
theorem Command.change?_eq_none_iff {c : Command} {env : Env} {d : Dice} :
    c.change? env d = none ↔
      (∃ e, c = .expression e) ∨ ∃ f, (c.exec env d).outcome = .error f := by
  cases c with
  | expression e => exact ⟨fun _ => .inl ⟨e, rfl⟩, fun _ => rfl⟩
  | foreign kind => exact ⟨fun _ => .inr ⟨_, rfl⟩, fun _ => rfl⟩
  | statement s =>
    rw [change?_statement, exec_statement_outcome]
    cases (s.mutation env d).outcome with
    | error f => exact ⟨fun _ => .inr ⟨f, rfl⟩, fun _ => rfl⟩
    | ok m =>
      refine ⟨fun h => (nomatch h), fun h => ?_⟩
      rcases h with ⟨e, h⟩ | ⟨f, h⟩ <;> cases h

namespace InStep

variable {builtins : Bindings Builtin} {ms : List Mutation} {env : Env}

/-- One command more. -/
theorem exec (h : InStep builtins ms env) (c : Command) (d : Dice) :
    InStep builtins (ms ++ (c.change? env d).toList) (c.exec env d).env := by
  cases c with
  | statement s =>
    rw [Command.change?_statement, Command.exec_statement_env]
    rcases hm : (s.mutation env d).outcome with f | m
    · rw [s.exec_env_of_error env d hm]
      exact (List.append_nil ms).symm ▸ h
    · rw [s.exec_env_of_ok env d hm]
      exact h.apply m
  | _ => exact (List.append_nil ms).symm ▸ h

/-- A run of commands more. -/
theorem run : ∀ {cs : List Command} {s : Session} {ms : List Mutation},
    InStep builtins ms s.env →
    InStep builtins (ms ++ runChanges s.env s.dice cs) (s.run cs).session.env
  | [], _, ms, h => (List.append_nil ms).symm ▸ h
  | c :: cs, s, ms, h => by
    have step := h.exec c s.dice
    rw [Session.run, Session.eval_eq, runChanges]
    rcases ho : s.outcome c with (e | defect) | v <;> rw [Session.outcome] at ho <;>
      simp only [ho]
    -- a line and a value that are kept are nothing that the commands after it look at
    · rw [← List.append_assoc]
      exact run (s := Session.note { s.advance c with diagnostics := s.diagnostics } e) step
    · have none : c.change? s.env s.dice = none := Command.change?_eq_none_iff.mpr (.inr ⟨_, ho⟩)
      simpa [none, Session.advance] using step
    · rw [← List.append_assoc]
      exact run (s := { s.advance c with diagnostics := s.diagnostics }) step

end InStep

/-! ### Whatever is done to a session -/

/-- Something that is done to a session: a change of its environment, a command, a run of commands or
    a reset. -/
inductive Action where
  | change (m : Mutation)
  | eval (c : Command)
  | run (cs : List Command)
  | reset

namespace Session

/-- The session after something is done to it. -/
def act (s : Session) : Action → Session
  | .change m => (s.perform m.exec).session
  | .eval c => (s.eval c).session
  | .run cs => (s.run cs).session
  | .reset => s.reset

/-- The changes that this makes. -/
def changesOf (s : Session) : Action → List Mutation
  | .change m => [m]
  | .eval c => (c.change? s.env s.dice).toList
  | .run cs => runChanges s.env s.dice cs
  | .reset => [.clear]

/-- The session after several things are done to it. -/
def acts (s : Session) (as : List Action) : Session := as.foldl act s

/-- The changes that these make, in their order. -/
def history (s : Session) : List Action → List Mutation
  | [] => []
  | a :: as => s.changesOf a ++ (s.act a).history as

end Session

namespace InStep

variable {builtins : Bindings Builtin}

/-- One thing more. -/
theorem act {s : Session} {ms : List Mutation} (h : InStep builtins ms s.env) (a : Action) :
    InStep builtins (ms ++ s.changesOf a) (s.act a).env := by
  cases a with
  | change m => exact h.apply m
  | eval c =>
    rw [Session.act, Session.eval_eq]
    exact h.exec c s.dice
  | run cs => exact h.run
  | reset => exact h.reset

theorem acts : ∀ {as : List Action} {s : Session} {ms : List Mutation},
    InStep builtins ms s.env → InStep builtins (ms ++ s.history as) (s.acts as).env
  | [], _, _, h => by simpa [Session.history, Session.acts] using h
  | a :: as, s, ms, h => by
    have rest : InStep builtins (ms ++ s.changesOf a ++ (s.act a).history as)
        ((s.act a).acts as).env := acts (h.act a)
    rw [List.append_assoc] at rest
    exact rest

end InStep

/-! ### What a name means -/

/-- Whatever is done to a session without bindings, the last change that touches a name decides what
    the name means: a value if that is an assignment, a user function if it is a declaration, else
    what is built in under the name, which never changes. No name is a variable and a function, and
    expressions and failures are no changes. -/
theorem last_touch_decides (s : Session) (hvars : s.env.vars = .empty)
    (hfuns : s.env.funs = .empty) (as : List Action) (x : String) :
    let env := (s.acts as).env
    let last := lastTouch? x (s.history as)
    (env.vars.get? x = none ∨ env.funs.get? x = none) ∧
      (∀ v, env.lookup x = .ok v ↔ last = some (.assign x v)) ∧
      ((∀ v, last ≠ some (.assign x v)) → env.lookup x = fail (.undefinedIdentifier x)) ∧
      (∀ f, env.funs.get? x = some f ↔ last = some (.declare x f)) ∧
      (∀ f, last = some (.declare x f) → ∀ args, env.call x args = env.callUser x f args) ∧
      ((∀ f, last ≠ some (.declare x f)) →
        ∀ args, env.call x args = s.env.callBuiltin x args) ∧
      env.builtins = s.env.builtins ∧
      ∀ c, (s.acts as).changesOf (.eval c) = [] ↔
        (∃ e, c = .expression e) ∨ ∃ f, (c.exec env (s.acts as).dice).outcome = .error f := by
  intro env last
  have start : InStep s.env.builtins [] s.env := by
    refine ⟨fun x => ?_, fun x => ?_, rfl⟩
    · rw [hvars]
      rfl
    · rw [hfuns]
      rfl
  have inStep : InStep s.env.builtins (s.history as) env := start.acts
  have assigned : ∀ v, env.vars.get? x = some v ↔ last = some (.assign x v) := fun v => by
    rw [inStep.vars]
    exact lastTouch?_bind_eq_some_iff fun m hm => Mutation.value?_eq_some_iff hm
  have declared : ∀ f, env.funs.get? x = some f ↔ last = some (.declare x f) := fun f => by
    rw [inStep.funs]
    exact lastTouch?_bind_eq_some_iff fun m hm => Mutation.function?_eq_some_iff hm
  refine ⟨?_, fun v => Env.lookup_eq_ok_iff.trans (assigned v), fun h => ?_, declared,
    fun f h => Env.call_of_user ((declared f).mpr h), fun h args => ?_, inStep.builtins, fun c => ?_⟩
  · cases hv : env.vars.get? x with
    | none => exact .inl rfl
    | some v =>
      refine .inr (Option.eq_none_iff_forall_ne_some.mpr fun f hf => ?_)
      rw [(assigned v).mp hv] at declared
      cases (declared f).mp hf
  · have unbound : env.vars.get? x = none :=
      Option.eq_none_iff_forall_ne_some.mpr fun v hv => h v ((assigned v).mp hv)
    rw [Env.lookup, unbound]
  · have unbound : env.funs.get? x = none :=
      Option.eq_none_iff_forall_ne_some.mpr fun f hf => h f ((declared f).mp hf)
    rw [Env.call_of_none unbound, Env.callBuiltin, Env.callBuiltin, inStep.builtins]
  · rw [Session.changesOf, Option.toList_eq_nil_iff]
    exact Command.change?_eq_none_iff

end

/-- A function hides the one built in under its name. It takes the place of a variable, and neither
    an assignment that fails nor changes of other names make a difference to it. -/
theorem declared_over_builtin :
    let s := Session.start Env.initial (Seed.int 7).dice
    let double : Function := ⟨["n"], .op .mul (some (.var "n")) (some (.lit (.int 2) rfl))⟩
    let as : List Action := [.change (.assign "len" (.int 3)),
      .eval (.statement (.define "len" double)),
      .run [.statement (.assign "len" (.var "m")), .statement (.assign "m" (.lit (.int 1) rfl)),
        .statement (.save ⟨0, []⟩), .expression (.var "m"), .statement (.delete "m")]]
    s.env.vars = .empty ∧ s.env.funs = .empty ∧
      (s.acts as).env.lookup "len" = fail (.undefinedIdentifier "len") ∧
      ∀ args, (s.acts as).env.call "len" args = (s.acts as).env.callUser "len" double args := by
  intro s double as
  have declared : lastTouch? "len" (s.history as) = some (.declare "len" double) := rfl
  obtain ⟨-, -, undefined, -, call, -⟩ := last_touch_decides s rfl rfl as "len"
  refine ⟨rfl, rfl, undefined fun v h => ?_, call double declared⟩
  rw [declared] at h
  cases h

end DiceNotation
