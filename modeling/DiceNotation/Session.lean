import DiceNotation.Exec

/-!
Sessions: commands run one after another against one environment and one source of dice.

A session keeps every value produced and a line for every failed command. In a run a failed command
is noted and the next one has its turn; a defect ends the run.
-/

namespace DiceNotation

/-- The state of a session. -/
structure Session where
  env : Env
  dice : Dice
  results : List Value
  diagnostics : List String

/-- What comes of something done in a session. -/
structure Report (α : Type) where
  outcome : Outcome α
  session : Session
  records : List Record

namespace Session

/-- A session in which nothing has been done yet. -/
def start (env : Env) (dice : Dice) : Session := ⟨env, dice, [], []⟩

/-- The last value produced, if there is one. -/
def last? (s : Session) : Option Value := s.results.getLast?

/-- Does something in the environment of a session; the history is not touched. -/
def perform {α : Type} (s : Session) (x : Env → Dice → Step α) : Report α :=
  let step := x s.env s.dice
  ⟨step.outcome, { s with env := step.env, dice := step.dice }, step.records⟩

/-- Executes a command and keeps its value. -/
def eval [Host] (s : Session) (c : Command) : Report (Option Value) :=
  let r := s.perform c.exec
  match r.outcome with
  | .ok (some v) => { r with session := { r.session with results := r.session.results ++ [v] } }
  | _ => r

/-- The line about a failed command. -/
def diagnostic (e : Error) : String := "Error: " ++ e.message

/-- Notes a failed command. -/
def note (s : Session) (e : Error) : Session :=
  { s with diagnostics := s.diagnostics ++ [diagnostic e] }

/-- Executes commands in order, noting failures; gives the values produced. -/
def run [Host] (s : Session) : List Command → Report (List Value)
  | [] => ⟨.ok [], s, []⟩
  | c :: cs =>
    let r := s.eval c
    match r.outcome with
    | .ok v =>
      let rest := run r.session cs
      { rest with
        outcome := rest.outcome.map (v.toList ++ ·)
        records := r.records ++ rest.records }
    | .error (.error e) =>
      let rest := run (r.session.note e) cs
      { rest with records := r.records ++ [.failed e.message] ++ rest.records }
    | .error (.defect d) => { r with outcome := .error (.defect d) }

/-- Drops all bindings and the history; the dice, the functions built in and the limits stay. -/
def reset (s : Session) : Session := start s.env.reset s.dice

end Session

end DiceNotation
