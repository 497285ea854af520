import DiceNotation.Proofs.Ensures
import DiceNotation.Session

/-!
The history of a session.

Commands one after another take a session from state to state (`advance`, `after`), and each comes
to an outcome of its own (`outcomes`). A run that meets no defect does just that with its commands,
and the values it gives are those of the outcomes (`run_eq`). What the commands come to depends on
the environment and the dice alone, not on the history so far (`outcomes_congr`). What holds of the
environment and of the values whatever command is executed holds after a run, also if a defect has
ended it (`run_keeps`).
-/

namespace DiceNotation

/-- The value that a command gives, if any. -/
def Outcome.value? : Outcome (Option Value) → Option Value
  | .ok v => v
  | .error _ => none

/-- The line that is noted about a command, if it failed. -/
def Outcome.line? : Outcome (Option Value) → Option String
  | .error (.error e) => some (Session.diagnostic e)
  | _ => none

/-- The record that a run adds about a command, if it failed. -/
def Outcome.failed? : Outcome (Option Value) → Option Record
  | .error (.error e) => some (.failed e.message)
  | _ => none

/-- The outcome is a defect. -/
def Outcome.IsDefect {α : Type} (o : Outcome α) : Prop := ∃ d, o = .error (.defect d)

namespace Session

variable [Host]

/-- What a command comes to in the session. -/
def outcome (s : Session) (c : Command) : Outcome (Option Value) := (c.exec s.env s.dice).outcome

/-- The session after a command: a value is kept, a failure noted. -/
def advance (s : Session) (c : Command) : Session where
  env := (c.exec s.env s.dice).env
  dice := (c.exec s.env s.dice).dice
  results := s.results ++ (s.outcome c).value?.toList
  diagnostics := s.diagnostics ++ (s.outcome c).line?.toList

/-- The session after commands. -/
def after (s : Session) (cs : List Command) : Session := cs.foldl advance s

/-- What each of the commands comes to in its turn. -/
def outcomes (s : Session) : List Command → List (Outcome (Option Value))
  | [] => []
  | c :: cs => s.outcome c :: (s.advance c).outcomes cs

/-- The records of the commands in their turns. -/
def log (s : Session) : List Command → List Record
  | [] => []
  | c :: cs =>
    (c.exec s.env s.dice).records ++ (s.outcome c).failed?.toList ++ (s.advance c).log cs

variable {s t : Session} {c : Command}

/-! ### Several commands -/

theorem after_append (as bs : List Command) : s.after (as ++ bs) = (s.after as).after bs :=
  List.foldl_append

theorem outcomes_append : ∀ (as bs : List Command) (s : Session),
    s.outcomes (as ++ bs) = s.outcomes as ++ (s.after as).outcomes bs
  | [], bs, s => rfl
  | a :: as, bs, s => by
    rw [List.cons_append, outcomes, outcomes, outcomes_append as bs (s.advance a)]
    rfl

theorem log_append : ∀ (as bs : List Command) (s : Session),
    s.log (as ++ bs) = s.log as ++ (s.after as).log bs
  | [], bs, s => rfl
  | a :: as, bs, s => by
    rw [List.cons_append, log, log, log_append as bs (s.advance a), List.append_assoc _ _ (log _ bs)]
    rfl

/-- What is kept of every command is kept in the order of the commands. -/
theorem kept_after {α : Type} {kept : Session → List α} {entry : Outcome (Option Value) → Option α}
    (h : ∀ s c, kept (s.advance c) = kept s ++ (entry (s.outcome c)).toList) :
    ∀ (cs : List Command) (s : Session),
      kept (s.after cs) = kept s ++ (s.outcomes cs).filterMap entry
  | [], s => (List.append_nil _).symm
  | c :: cs, s => by
    have ih := kept_after h cs (s.advance c)
    rw [after, List.foldl_cons, ← after, ih, h, outcomes, List.filterMap_cons]
    cases entry (s.outcome c) <;> simp

theorem results_after (cs : List Command) (s : Session) :
    (s.after cs).results = s.results ++ (s.outcomes cs).filterMap Outcome.value? :=
  kept_after (fun _ _ => rfl) cs s

theorem diagnostics_after (cs : List Command) (s : Session) :
    (s.after cs).diagnostics = s.diagnostics ++ (s.outcomes cs).filterMap Outcome.line? :=
  kept_after (fun _ _ => rfl) cs s

/-- The outcomes are those of the commands in their turns. -/
theorem exists_of_mem_outcomes {o : Outcome (Option Value)} : ∀ {cs : List Command} {s : Session},
    o ∈ s.outcomes cs → ∃ as c bs, cs = as ++ c :: bs ∧ o = (s.after as).outcome c
  | c :: cs, s, ho => by
    rcases List.mem_cons.mp ho with rfl | ho
    · exact ⟨[], c, cs, rfl, rfl⟩
    · obtain ⟨as, c', bs, rfl, rfl⟩ := exists_of_mem_outcomes ho
      exact ⟨c :: as, c', bs, rfl, rfl⟩

/-- Commands take no notice of the history. -/
theorem outcomes_congr : ∀ (cs : List Command) {s t : Session}, s.env = t.env → s.dice = t.dice →
    s.outcomes cs = t.outcomes cs ∧ (s.after cs).env = (t.after cs).env ∧
      (s.after cs).dice = (t.after cs).dice
  | [], _, _, henv, hdice => ⟨rfl, henv, hdice⟩
  | c :: cs, s, t, henv, hdice => by
    have step : c.exec s.env s.dice = c.exec t.env t.dice := by rw [henv, hdice]
    have ih := outcomes_congr cs (s := s.advance c) (t := t.advance c)
      (congrArg Step.env step) (congrArg Step.dice step)
    refine ⟨?_, ih.2⟩
    rw [outcomes, outcomes, ih.1, outcome, outcome, step]

/-! ### Runs -/

theorem eval_eq (s : Session) (c : Command) : s.eval c =
    ⟨s.outcome c, { s.advance c with diagnostics := s.diagnostics },
      (c.exec s.env s.dice).records⟩ := by
  unfold eval perform advance outcome
  generalize c.exec s.env s.dice = step
  rcases step with ⟨_ | _ | v, env, dice, records⟩ <;> simp [Outcome.value?]

/-- A run that meets no defect executes its commands one after another, all of them. -/
theorem run_eq : ∀ (cs : List Command) (s : Session), (∀ o ∈ s.outcomes cs, ¬o.IsDefect) →
    s.run cs = ⟨.ok ((s.outcomes cs).filterMap Outcome.value?), s.after cs, s.log cs⟩
  | [], s, _ => rfl
  | c :: cs, s, h => by
    obtain ⟨hc, hcs⟩ := List.forall_mem_cons.mp h
    have ih := run_eq cs (s.advance c) hcs
    rw [run, eval_eq, outcomes, log, List.filterMap_cons, after, List.foldl_cons, ← after]
    rcases ho : s.outcome c with (e | d) | v
    · have noted : { s.advance c with diagnostics := s.diagnostics }.note e = s.advance c := by
        simp [note, advance, ho, Outcome.line?]
      simp [noted, ih, Outcome.value?, Outcome.failed?]
    · exact absurd ⟨d, ho⟩ hc
    · have kept : { s.advance c with diagnostics := s.diagnostics } = s.advance c := by
        simp [advance, ho, Outcome.line?]
      simp only [kept, ih]
      cases v <;> simp [Outcome.value?, Outcome.failed?, Except.map]

/-- What every command keeps, a run keeps: `P` of the environment, and `Q` of the values, which are added
    to those of the session and are the ones that the run gives. It may end before its last command. -/
theorem run_keeps {P : Env → Prop} {Q : Value → Prop} : ∀ {cs : List Command} {s : Session}, P s.env →
    (∀ c ∈ cs, ∀ env d, P env → Outcome.Gives (fun w => ∀ v ∈ w, Q v) (c.exec env d).outcome ∧
      P (c.exec env d).env) →
    P (s.run cs).session.env ∧ ∃ vs, (∀ v ∈ vs, Q v) ∧ (s.run cs).session.results = s.results ++ vs ∧
      ∀ us, (s.run cs).outcome = .ok us → us = vs
  | [], s, hs, _ => ⟨hs, [], by simp, (List.append_nil _).symm, fun us h => by cases h; rfl⟩
  | c :: cs, s, hs, hstep => by
    obtain ⟨hc, hcs⟩ := List.forall_mem_cons.mp hstep
    obtain ⟨hvalue, hafter⟩ := hc s.env s.dice hs
    rw [run, eval_eq]
    dsimp only
    rcases ho : s.outcome c with (e | d) | w
    · obtain ⟨hend, vs, hvs, hresults, hreturned⟩ :=
        run_keeps (s := { s.advance c with diagnostics := s.diagnostics }.note e) hafter hcs
      refine ⟨hend, vs, hvs, ?_, hreturned⟩
      rw [hresults, note, advance, ho]
      simp [Outcome.value?]
    · refine ⟨hafter, [], by simp, ?_, fun us h => by cases h⟩
      rw [advance, ho]
      simp [Outcome.value?]
    · obtain ⟨hend, vs, hvs, hresults, hreturned⟩ :=
        run_keeps (s := { s.advance c with diagnostics := s.diagnostics }) hafter hcs
      have hw : ∀ v ∈ w, Q v := by
        rw [outcome] at ho
        rw [ho] at hvalue
        exact hvalue
      refine ⟨hend, w.toList ++ vs, ?_, ?_, ?_⟩
      · exact List.forall_mem_append.mpr ⟨fun v hv => hw v (Option.mem_toList.mp hv), hvs⟩
      · rw [hresults, advance, ho]
        simp [Outcome.value?]
      · intro us hus
        dsimp only at hus
        cases hrest : (run { s.advance c with diagnostics := s.diagnostics } cs).outcome with
        | error f =>
          rw [hrest] at hus
          cases hus
        | ok rest =>
          rw [hrest] at hus
          cases hus
          rw [hreturned rest hrest]

end Session

end DiceNotation
