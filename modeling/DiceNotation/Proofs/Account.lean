import Mathlib.Data.List.Basic
import DiceNotation.Proofs.Safety

/-!
A session accounts for every command.

Executed one after another, each in what the ones before it have left, commands come to entries: the
command and its outcome (`execAll`). Among well-formed values an entry is exactly one of three, a
value, a failure or a statement that is done, so their numbers add up (`Entry.length_eq`). A run
keeps the values and the lines of the failures, in order, and does nothing else; and as it does not
look at what it has kept, runs may be cut in two anywhere (`Session.run_append`). Together these
account for every command of a run once (`run_accounts`).
-/

namespace DiceNotation

open Unlimited

/-! ### Entries -/

/-- A command and what it came to. -/
structure Entry where
  command : Command
  outcome : Outcome (Option Value)

namespace Entry

/-- The value of an expression that succeeded. -/
def value? : Entry → Option Value
  | ⟨.expression _, .ok w⟩ => w
  | _ => none

/-- The line about a command that failed. -/
def line? : Entry → Option String
  | ⟨_, .error (.error e)⟩ => some ("Error: " ++ e.message)
  | _ => none

/-- The entry is of a statement that succeeded. -/
def isDone : Entry → Bool
  | ⟨.statement _, .ok _⟩ => true
  | _ => false

/-- The outcome is one that the command may come to among well-formed values. -/
def Answered (entry : Entry) : Prop := entry.command.Answers entry.outcome

variable {entry : Entry}

theorem Answered.value? (h : entry.Answered) : entry.outcome.value? = entry.value? := by
  obtain ⟨c, o⟩ := entry
  cases h with
  | done s => rfl
  | value e _ => rfl
  | refused c e => cases c <;> rfl

theorem Answered.line? (h : entry.Answered) : entry.outcome.line? = entry.line? := by
  obtain ⟨c, o⟩ := entry
  cases h <;> rfl

/-- An entry is one of the three. -/
theorem Answered.counted (h : entry.Answered) :
    entry.value?.toList.length + entry.line?.toList.length + (if entry.isDone then 1 else 0) = 1 := by
  obtain ⟨c, o⟩ := entry
  cases h with
  | done s => rfl
  | value e _ => rfl
  | refused c e => cases c <;> rfl

theorem length_eq : ∀ {entries : List Entry}, (∀ entry ∈ entries, entry.Answered) →
    entries.length = (entries.filterMap Entry.value?).length +
      (entries.filterMap Entry.line?).length + entries.countP isDone
  | [], _ => rfl
  | entry :: entries, h => by
    obtain ⟨hentry, hentries⟩ := List.forall_mem_cons.mp h
    have ih := length_eq hentries
    have once := hentry.counted
    simp only [List.filterMap_eq_flatMap_toList, List.flatMap_cons, List.length_append,
      List.length_cons, List.countP_cons] at ih ⊢
    omega

end Entry

/-! ### Commands one after another -/

/-- The entries of commands, and the environment and the dice after them. -/
structure Execution where
  entries : List Entry
  env : Env
  dice : Dice

/-- Executes commands one after another, each whatever the ones before it came to. -/
def execAll (env : Env) (d : Dice) : List Command → Execution
  | [] => ⟨[], env, d⟩
  | c :: cs =>
    let step := c.exec env d
    let rest := execAll step.env step.dice cs
    { rest with entries := ⟨c, step.outcome⟩ :: rest.entries }

theorem execAll_commands : ∀ (cs : List Command) (env : Env) (d : Dice),
    (execAll env d cs).entries.map Entry.command = cs
  | [], _, _ => rfl
  | c :: cs, _, _ => congrArg (c :: ·) (execAll_commands cs _ _)

/-- A session comes to the same, whatever it keeps. -/
theorem execAll_session : ∀ (cs : List Command) (s : Session),
    (execAll s.env s.dice cs).entries.map Entry.outcome = s.outcomes cs ∧
      (execAll s.env s.dice cs).env = (s.after cs).env ∧
      (execAll s.env s.dice cs).dice = (s.after cs).dice
  | [], _ => ⟨rfl, rfl, rfl⟩
  | c :: cs, s => by
    obtain ⟨houtcomes, hrest⟩ := execAll_session cs (s.advance c)
    exact ⟨congrArg (s.outcome c :: ·) houtcomes, hrest⟩

theorem execAll_answered : ∀ {cs : List Command} {env : Env} {d : Dice}, env.WellFormed →
    ∀ entry ∈ (execAll env d cs).entries, entry.Answered
  | [], _, _, _, _, hentry => nomatch hentry
  | c :: cs, env, d, h, entry, hentry => by
    have hstep := (c.exec_in Fragment.whole_closed (Env.in_whole_iff.mpr h) c.in_whole d).2
    rcases List.mem_cons.mp hentry with rfl | hentry
    · exact c.exec_answers h d
    · exact execAll_answered (Env.in_whole_iff.mp hstep) entry hentry

/-! ### Runs -/

namespace Session

variable {s : Session}

/-- A run executes its commands one after another and keeps their values and lines. -/
theorem run_eq_execAll (h : s.env.WellFormed) (cs : List Command) :
    let done := execAll s.env s.dice cs
    s.run cs = ⟨.ok (done.entries.filterMap Entry.value?),
      { env := done.env
        dice := done.dice
        results := s.results ++ done.entries.filterMap Entry.value?
        diagnostics := s.diagnostics ++ done.entries.filterMap Entry.line? }, s.log cs⟩ := by
  intro done
  obtain ⟨houtcomes, henv, hdice⟩ := execAll_session cs s
  have answered : ∀ entry ∈ done.entries, entry.Answered := execAll_answered h
  have values : (s.outcomes cs).filterMap Outcome.value? = done.entries.filterMap Entry.value? := by
    rw [← houtcomes, List.filterMap_map]
    exact List.filterMap_congr fun entry hentry => (answered entry hentry).value?
  have lines : (s.outcomes cs).filterMap Outcome.line? = done.entries.filterMap Entry.line? := by
    rw [← houtcomes, List.filterMap_map]
    exact List.filterMap_congr fun entry hentry => (answered entry hentry).line?
  rw [run_eq_of_wellFormed h, values]
  congr 1
  rw [henv, hdice, ← values, ← lines, ← results_after, ← diagnostics_after]

/-- A run of some commands and then of others is a run of both. -/
theorem run_append (h : s.env.WellFormed) (xs ys : List Command) :
    ∃ us vs, (s.run xs).outcome = .ok us ∧ ((s.run xs).session.run ys).outcome = .ok vs ∧
      s.run (xs ++ ys) = ⟨.ok (us ++ vs), ((s.run xs).session.run ys).session,
        (s.run xs).records ++ ((s.run xs).session.run ys).records⟩ := by
  have first := run_eq_of_wellFormed h xs
  have second := run_eq_of_wellFormed (after_wellFormed h xs) ys
  refine ⟨(s.outcomes xs).filterMap Outcome.value?,
    ((s.after xs).outcomes ys).filterMap Outcome.value?, ?_, ?_, ?_⟩
  · rw [first]
  · rw [first]
    exact congrArg Report.outcome second
  · rw [run_eq_of_wellFormed h, outcomes_append, after_append, log_append, List.filterMap_append,
      first]
    dsimp only
    rw [second]

end Session

/-- A run over well-formed values leaves the environment and the dice as the execution of its
    commands one after another does. The values that it returns, which are those of the expressions
    that succeed, and the lines about the commands that fail are what it adds to the history, in the
    order of the commands; with the statements that succeed they make up all commands. And a run of
    some commands and then of others is a run of both. -/
theorem run_accounts (s : Session) (h : s.env.WellFormed) (cs : List Command) :
    let done := execAll s.env s.dice cs
    ∃ values lines, values = done.entries.filterMap Entry.value? ∧
      lines = done.entries.filterMap Entry.line? ∧ (s.run cs).outcome = .ok values ∧
      (s.run cs).session =
        ⟨done.env, done.dice, s.results ++ values, s.diagnostics ++ lines⟩ ∧
      cs.length = values.length + lines.length + done.entries.countP Entry.isDone ∧
      ∀ xs ys, cs = xs ++ ys → ∃ us vs, (s.run xs).outcome = .ok us ∧
        ((s.run xs).session.run ys).outcome = .ok vs ∧ values = us ++ vs ∧
        (s.run cs).session = ((s.run xs).session.run ys).session := by
  intro done
  have hrun := Session.run_eq_execAll h cs
  have houtcome := congrArg Report.outcome hrun
  refine ⟨_, _, rfl, rfl, houtcome, congrArg Report.session hrun, ?_, ?_⟩
  · rw [← Entry.length_eq (execAll_answered h), ← List.length_map Entry.command, execAll_commands]
  · rintro xs ys rfl
    obtain ⟨us, vs, hus, hvs, hboth⟩ := Session.run_append h xs ys
    have hvalues := houtcome.symm.trans (congrArg Report.outcome hboth)
    exact ⟨us, vs, hus, hvs, Except.ok.inj hvalues, by rw [hboth]⟩

/-- Two values, three failures and one statement that is done, in a session that had a history. -/
theorem mixed_run_accounts :
    let s : Session := ⟨Env.initial, (Seed.int 7).dice, [.text "a"], ["Error: b"]⟩
    let cs : List Command := [.statement (.assign "x" (.lit (.int 5) rfl)), .expression (.var "x"),
      .expression (.var "y"), .foreign .absent, .statement (.assign "x" (.var "y")),
      .expression (.list [.var "x", .var "x"])]
    s.env.WellFormed ∧ (s.run cs).outcome = .ok [.int 5, .list [.int 5, .int 5]] ∧
      (s.run cs).session.results = [.text "a", .int 5, .list [.int 5, .int 5]] ∧
      (s.run cs).session.diagnostics = ["Error: b", "Error: Undefined identifier 'y'",
        "Error: Tried to create a malformed command: NoneType is not a command",
        "Error: Undefined identifier 'y'"] := by
  intro s cs
  have h : s.env.WellFormed := fun name v hv => nomatch hv
  obtain ⟨values, lines, hvalues, hlines, houtcome, hsession, -⟩ := run_accounts s h cs
  refine ⟨h, ?_, ?_, ?_⟩
  · rw [houtcome, hvalues]
    rfl
  · rw [hsession, hvalues]
    rfl
  · rw [hsession, hlines]
    rfl

end DiceNotation
