import DiceNotation.Eval
import DiceNotation.Record

/-!
Execution of statements and commands.

A statement first evaluates to the one change it makes, and only then is the change applied; a
failure leaves the environment as it was. An expression changes nothing but the dice. Whatever
happens is recorded in order.
-/

namespace DiceNotation

/-- What comes of an execution: its outcome, the environment and the dice after it, and the records
    of what happened. -/
structure Step (α : Type) where
  outcome : Outcome α
  env : Env
  dice : Dice
  records : List Record

/-- Makes a change, and records it. -/
def Mutation.exec (m : Mutation) (env : Env) (d : Dice) : Step Unit :=
  ⟨.ok (), env.apply m, d, [.changed m]⟩

/-- An evaluation as an execution: it leaves the environment alone. -/
def Eval.exec {α : Type} (x : Eval α) (env : Env) (d : Dice) : Step α :=
  let t := x d
  ⟨t.outcome, env, t.dice, t.rolls.map .rolled⟩

section

variable [Host]

/-- The change that a statement makes. -/
def Stmt.mutation (env : Env) : Stmt → Eval Mutation
  | .assign name e => do return .assign name (← e.eval env)
  | .define name f => pure (.declare name f)
  | .delete name => pure (.delete name)
  | .clear => pure .clear
  | .run path => Eval.fail (.unimplemented ("run " ++ path.shown))
  | .save path => Eval.fail (.unimplemented ("save " ++ path.shown))
  | .bare => Eval.fail (.unimplemented Stmt.bare.kind.name)
  | .foreign kind => Eval.fail (.malformed (kind.name ++ " is not a statement"))

/-- Executes a statement: its change is made once it is known. -/
def Stmt.exec (s : Stmt) (env : Env) (d : Dice) : Step Unit :=
  let t := s.mutation env d
  let rolls := t.rolls.map Record.rolled
  match t.outcome with
  | .ok m =>
    let step := m.exec env t.dice
    { step with records := rolls ++ step.records }
  | .error e => ⟨.error e, env, t.dice, rolls⟩

/-- Executes a command. A statement gives nothing, an expression its value, if it has one. -/
def Command.exec (c : Command) (env : Env) (d : Dice) : Step (Option Value) :=
  match c with
  | .statement s =>
    let step := s.exec env d
    { step with
      outcome := step.outcome.map fun _ => none
      records := .statement s.kind :: step.records }
  | .expression e =>
    let step := Eval.exec (e.eval env) env d
    { step with
      outcome := step.outcome.map Value.given?
      records := .expression e.kind :: step.records }
  | .foreign kind => ⟨fail (.malformed (kind.name ++ " is not a command")), env, d, []⟩

namespace Stmt

variable (s : Stmt) (env : Env) (d : Dice)

theorem mutation_assign (name : String) (e : Expr) : (assign name e).mutation env d =
    ⟨(e.eval env d).outcome.map (.assign name), (e.eval env d).dice, (e.eval env d).rolls⟩ :=
  Eval.bind_pure_apply ..

theorem exec_outcome : (s.exec env d).outcome = (s.mutation env d).outcome.map fun _ => () := by
  unfold exec
  cases h : (s.mutation env d).outcome <;> simp only [h] <;> rfl

theorem exec_dice : (s.exec env d).dice = (s.mutation env d).dice := by
  unfold exec
  cases h : (s.mutation env d).outcome with
  | ok m =>
    simp only [h]
    rfl
  | error e => simp only [h]

theorem exec_records : (s.exec env d).records = (s.mutation env d).rolls.map .rolled ++
    (s.mutation env d).outcome.toOption.toList.map .changed := by
  unfold exec
  cases h : (s.mutation env d).outcome with
  | ok m =>
    simp only [h]
    rfl
  | error e =>
    simp only [h]
    exact (List.append_nil _).symm

theorem exec_env_of_ok {m : Mutation} (h : (s.mutation env d).outcome = .ok m) :
    (s.exec env d).env = env.apply m := by
  unfold exec
  simp only [h]
  rfl

theorem exec_env_of_error {f : Failure} (h : (s.mutation env d).outcome = .error f) :
    (s.exec env d).env = env := by
  unfold exec
  simp only [h]

end Stmt

namespace Command

theorem exec_statement_outcome (s : Stmt) (env : Env) (d : Dice) :
    ((statement s).exec env d).outcome = (s.mutation env d).outcome.map fun _ => none := by
  simp only [exec, s.exec_outcome]
  cases (s.mutation env d).outcome <;> rfl

theorem exec_statement_env (s : Stmt) (env : Env) (d : Dice) :
    ((statement s).exec env d).env = (s.exec env d).env := rfl

theorem exec_statement_dice (s : Stmt) (env : Env) (d : Dice) :
    ((statement s).exec env d).dice = (s.mutation env d).dice := s.exec_dice env d

theorem exec_statement_records (s : Stmt) (env : Env) (d : Dice) :
    ((statement s).exec env d).records = .statement s.kind ::
      ((s.mutation env d).rolls.map .rolled ++
        (s.mutation env d).outcome.toOption.toList.map .changed) :=
  congrArg (_ :: ·) (s.exec_records env d)

end Command

end

end DiceNotation
