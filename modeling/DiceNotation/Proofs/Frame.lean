import DiceNotation.Proofs.Rolls
import DiceNotation.Proofs.Safety

/-!
Commands that leave no trace.

Nothing but a statement that is done changes the environment, and nothing but a draw the dice. So an
expression, or a command that fails, makes no difference to the commands around it unless it draws
dice: with and without it they come to the same, and what is kept of a run differs by its own value
or line alone (`leaves_no_trace`).
-/

namespace DiceNotation

open Unlimited

/-- An expression and a command that fails leave the environment as it is. -/
theorem Command.exec_env_eq {c : Command} {env : Env} {d : Dice}
    (h : (∃ e, c = .expression e) ∨ ∃ e, (c.exec env d).outcome = .error (.error e)) :
    (c.exec env d).env = env := by
  cases c with
  | expression e => rfl
  | foreign kind => rfl
  | statement s =>
    rcases h with ⟨_, h⟩ | ⟨e, h⟩
    · cases h
    rw [exec_statement_outcome] at h
    rw [exec_statement_env]
    rcases hm : (s.mutation env d).outcome with f | m
    · exact s.exec_env_of_error env d hm
    · rw [hm] at h
      cases h

/-- A command with no draw on record leaves the dice as they are. -/
theorem Command.exec_dice_eq {c : Command} {env : Env} {d : Dice}
    (h : ∀ r, .rolled r ∈ (c.exec env d).records → r.draws = []) : (c.exec env d).dice = d := by
  refine (c.exec_thrown env d).unchanged fun r hr => ?_
  obtain ⟨record, hrecord, hroll⟩ := List.mem_filterMap.mp hr
  cases record with
  | rolled r' =>
    obtain rfl := Option.some.inj hroll
    exact h _ hrecord
  | _ => cases hroll

/-- The sessions are the same but for the value or the line that an outcome has left in the one. -/
structure Session.Differ (o : Outcome (Option Value)) (s t : Session) : Prop where
  env : s.env = t.env
  dice : s.dice = t.dice
  results : ∃ before later, s.results = before ++ o.value?.toList ++ later ∧
    t.results = before ++ later
  diagnostics : ∃ before later, s.diagnostics = before ++ o.line?.toList ++ later ∧
    t.diagnostics = before ++ later

/-- After a command that has changed neither environment nor dice, others come to what they come to
    without it. -/
theorem Session.advance_differ {s : Session} {c : Command} (henv : (s.advance c).env = s.env)
    (hdice : (s.advance c).dice = s.dice) (cs : List Command) :
    (s.advance c).outcomes cs = s.outcomes cs ∧
      Session.Differ (s.outcome c) ((s.advance c).after cs) (s.after cs) := by
  have same := outcomes_congr cs henv hdice
  refine ⟨same.1, same.2.1, same.2.2, ?_, ?_⟩
  · refine ⟨s.results, (s.outcomes cs).filterMap Outcome.value?, ?_, results_after cs s⟩
    rw [results_after, same.1]
    rfl
  · refine ⟨s.diagnostics, (s.outcomes cs).filterMap Outcome.line?, ?_, diagnostics_after cs s⟩
    rw [diagnostics_after, same.1]
    rfl

/-- An expression, or a command that fails, leaves the environment as it was before it. If it draws
    no dice either, then every command before and after it comes to the same in a run with it and in
    the run without it, and the sessions at the end differ by its own entry alone. -/
theorem leaves_no_trace (s : Session) (h : s.env.WellFormed) (as bs : List Command) (c : Command)
    (hc : (∃ e, c = .expression e) ∨ ∃ e, (s.after as).outcome c = .error (.error e)) :
    ((s.after as).advance c).env = (s.after as).env ∧
      ((∀ r, .rolled r ∈ (c.exec (s.after as).env (s.after as).dice).records → r.draws = []) →
        s.outcomes (as ++ c :: bs) =
            s.outcomes as ++ (s.after as).outcome c :: (s.after as).outcomes bs ∧
          s.outcomes (as ++ bs) = s.outcomes as ++ (s.after as).outcomes bs ∧
          Session.Differ ((s.after as).outcome c) (s.run (as ++ c :: bs)).session
            (s.run (as ++ bs)).session) := by
  have henv : ((s.after as).advance c).env = (s.after as).env := Command.exec_env_eq hc
  refine ⟨henv, fun hdraws => ?_⟩
  have hdice : ((s.after as).advance c).dice = (s.after as).dice := Command.exec_dice_eq hdraws
  obtain ⟨houtcomes, hdiffer⟩ := Session.advance_differ henv hdice bs
  refine ⟨?_, Session.outcomes_append as bs s, ?_⟩
  · rw [Session.outcomes_append, Session.outcomes, houtcomes]
  · rw [Session.run_eq_of_wellFormed h, Session.run_eq_of_wellFormed h, Session.after_append,
      Session.after_append]
    exact hdiffer

/-- An assignment that fails between an assignment and a use of the variable. -/
theorem failed_assignment_leaves_no_trace :
    let s := Session.start Env.initial (Seed.int 7).dice
    let as : List Command := [.statement (.assign "x" (.lit (.int 5) rfl))]
    let c : Command := .statement (.assign "x" (.call "f" [.var "x"]))
    let bs : List Command := [.expression (.var "x")]
    (s.after as).outcome c = .error (.error (.undefinedIdentifier "f")) ∧
      Session.Differ ((s.after as).outcome c) (s.run (as ++ c :: bs)).session
        (s.run (as ++ bs)).session := by
  intro s as c bs
  have h : s.env.WellFormed := fun name v hv => nomatch hv
  have hc : (s.after as).outcome c = .error (.error (.undefinedIdentifier "f")) := rfl
  have hrecords : (c.exec (s.after as).env (s.after as).dice).records =
      [.statement (.record .assign)] := rfl
  refine ⟨hc, ((leaves_no_trace s h as bs c (.inr ⟨_, hc⟩)).2 fun r hr => ?_).2.2⟩
  rw [hrecords] at hr
  simp at hr

end DiceNotation
