import DiceNotation.Proofs.Faces
import DiceNotation.Proofs.Pools
import DiceNotation.Proofs.Rolls
import DiceNotation.Proofs.Safety

/-!
The log of a run is an audit trail.

Every command has a page in the log (`Page`): a line that opens it, a line for each pool that its
evaluation makes, and a line that closes it if the command has changed the environment or failed.
The pools are those that the machine makes on its way, whether or not the evaluation comes to an end
with a value. The log of a run is the pages of its commands, one after another, each in the session
that the commands before it have left (`Logged`). And the dice move by what is on record alone: drawn
one after another, the dice of all the rolls show the faces that the log has, and they are then where
the run leaves them (`run_logged`). Each of the records can be written, but for those of rolls with a
number that has too many digits (`Session.run_written`).
-/

namespace DiceNotation

open Unlimited

/-! ### Pages -/

/-- A line of the log: its level and its text. -/
abbrev Line := Record.Level × String

/-- The line that a record is written as. -/
def Record.line (r : Record) : Line := (r.level, r.text)

/-- The line about a pool: the dice, and the faces in brackets. -/
def Roll.line (r : Roll) : Line :=
  (.debug, "rolled " ++ toString r.count ++ "d" ++ toString r.sides ++ " -> [" ++
    ", ".intercalate (r.faces.map fun n => toString n) ++ "]")

/-- The error that an outcome is. -/
def Outcome.error? {α : Type} : Outcome α → Option Error
  | .error (.error e) => some e
  | _ => none

namespace Command

/-- The pools that a command makes. -/
def Pools (c : Command) (env : Env) (d : Dice) (pools : List Roll) : Prop :=
  match c.subject? with
  | some e => e.Pools env d pools
  | none => pools = []

/-- The line that opens the page of a command. An object that is no command has none. -/
def opening : Command → List Line
  | .statement s => [(.debug, "statement " ++ s.kind.name)]
  | .expression e => [(.debug, "expression " ++ e.kind.name)]
  | .foreign _ => []

/-- What closes the page of a command, by the environment after it and its outcome: the change that
    a statement has made, nothing for an expression with a value, or the failure. -/
inductive Closing (env : Env) : Command → Outcome (Option Value) → List Line → Prop
  | assigned {name : String} (e : Expr) {v : Value} : env.vars.get? name = some v →
    Closing env (.statement (.assign name e)) (.ok none)
      [(.debug, "assigned " ++ name ++ " = " ++ v.shown)]
  | declared (name : String) (f : Function) : Closing env (.statement (.define name f)) (.ok none)
      [(.debug, "declared function " ++ name ++ "(" ++ ", ".intercalate f.params ++ ")")]
  | deleted (name : String) :
    Closing env (.statement (.delete name)) (.ok none) [(.debug, "deleted " ++ name)]
  | cleared : Closing env (.statement .clear) (.ok none) [(.debug, "environment cleared")]
  | valued (e : Expr) (v : Value) : Closing env (.expression e) (.ok (some v)) []
  | failed (c : Command) (e : Error) :
    Closing env c (.error (.error e)) [(.info, "command failed: " ++ e.message)]

end Command

namespace Session

/-- The page of a command in a session: its lines, the rolls on record, and what the run of the
    command adds to the diagnostics. -/
structure Page (s : Session) (c : Command) (page : List Record) : Prop where
  pools : c.Pools s.env s.dice (page.filterMap Record.roll?)
  lines : ∃ closing, c.Closing (s.run [c]).session.env (s.eval c).outcome closing ∧
    page.map Record.line =
      c.opening ++ (page.filterMap Record.roll?).map Roll.line ++ closing
  diagnosed : (s.run [c]).session.diagnostics = s.diagnostics ++
    (s.eval c).outcome.error?.toList.map fun e => "Error: " ++ e.message

/-- The log has one page for every command. -/
inductive Logged : Session → List Command → List Record → Prop
  | nil (s : Session) : Logged s [] []
  | cons {s : Session} {c : Command} {cs : List Command} {page rest : List Record} :
    s.Page c page → Logged (s.run [c]).session cs rest → Logged s (c :: cs) (page ++ rest)

end Session

/-! ### The page of a command -/

theorem Record.lines_rolled (rolls : List Roll) :
    (rolls.map Record.rolled).map Record.line = rolls.map Roll.line := by
  rw [List.map_map]
  rfl

theorem Command.exec_pools (c : Command) (env : Env) (d : Dice) :
    c.Pools env d ((c.exec env d).records.filterMap Record.roll?) := by
  cases c with
  | expression e =>
    rw [exec_expression_rolls]
    exact e.eval_pools env d
  | statement s =>
    rw [exec_statement_rolls]
    cases s with
    | assign name e =>
      rw [Stmt.mutation_assign]
      exact e.eval_pools env d
    | _ => rfl
  | foreign kind => rfl

/-- A change closes the page of the statement that makes it. -/
theorem Stmt.closing_of_ok {s : Stmt} {env : Env} {d : Dice} {m : Mutation}
    (h : (s.mutation env d).outcome = .ok m) :
    Command.Closing (env.apply m) (.statement s) (.ok none) [(Record.changed m).line] := by
  cases s with
  | assign name e =>
    rw [mutation_assign] at h
    rcases hv : (e.eval env d).outcome with f | v <;> rw [hv] at h <;> cases h
    refine .assigned e ?_
    rw [Env.apply, Bindings.get?_bind, if_pos rfl]
  | define name f =>
    cases h
    exact .declared name f
  | delete name =>
    cases h
    exact .deleted name
  | clear =>
    cases h
    exact .cleared
  | _ => cases h

namespace Session

variable {s : Session}

/-- What a command leaves in the log. -/
def page (s : Session) (c : Command) : List Record :=
  (c.exec s.env s.dice).records ++ (s.outcome c).failed?.toList

theorem page_rolls (s : Session) (c : Command) : (s.page c).filterMap Record.roll? =
    (c.exec s.env s.dice).records.filterMap Record.roll? := by
  have silent : (s.outcome c).failed?.toList.filterMap Record.roll? = [] := by
    rcases s.outcome c with (e | d) | w <;> rfl
  rw [page, List.filterMap_append, silent, List.append_nil]

/-- The lines of a page. -/
theorem page_lines (h : s.env.WellFormed) (c : Command) :
    ∃ closing, c.Closing (s.advance c).env (s.outcome c) closing ∧
      (s.page c).map Record.line =
        c.opening ++ ((s.page c).filterMap Record.roll?).map Roll.line ++ closing := by
  have answers : c.Answers (s.outcome c) := c.exec_answers h s.dice
  rw [page_rolls, page, List.map_append]
  cases c with
  | expression e =>
    rw [Command.exec_expression_rolls, ← Record.lines_rolled]
    generalize s.outcome (.expression e) = o at answers
    cases answers with
    | @value _ v hv => exact ⟨[], .valued e v, rfl⟩
    | refused _ err => exact ⟨_, .failed _ err, rfl⟩
  | foreign kind => exact ⟨_, .failed _ _, rfl⟩
  | statement st =>
    rw [Command.exec_statement_rolls, Command.exec_statement_records, List.map_cons,
      List.map_append, Record.lines_rolled]
    have houtcome : s.outcome (.statement st) = _ := Command.exec_statement_outcome st s.env s.dice
    rcases hm : (st.mutation s.env s.dice).outcome with f | m <;> rw [hm] at houtcome
    · rw [houtcome] at answers ⊢
      cases answers with
      | refused _ err =>
        -- no change is on record, but the run has added the failure
        refine ⟨_, .failed _ err, ?_⟩
        show _ :: (_ ++ []) ++ [_] = _
        rw [List.append_nil]
        rfl
    · have henv : (s.advance (.statement st)).env = s.env.apply m := st.exec_env_of_ok _ _ hm
      rw [houtcome, henv]
      -- the change is on record, and the run has added nothing
      refine ⟨_, Stmt.closing_of_ok hm, ?_⟩
      show _ :: (_ ++ [_]) ++ [] = _
      rw [List.append_nil]
      rfl

theorem page_spec (h : s.env.WellFormed) (c : Command) : s.Page c (s.page c) := by
  have hrun : (s.run [c]).session = s.advance c :=
    congrArg Report.session (run_eq_of_wellFormed h [c])
  have heval : (s.eval c).outcome = s.outcome c := congrArg Report.outcome (s.eval_eq c)
  refine ⟨?_, ?_, ?_⟩
  · rw [page_rolls]
    exact c.exec_pools s.env s.dice
  · rw [hrun, heval]
    exact page_lines h c
  · rw [hrun, heval, advance]
    rcases s.outcome c with (e | d) | w <;> rfl

/-- The log of several commands. -/
theorem log_logged (cs : List Command) (s : Session) (h : s.env.WellFormed) :
    s.Logged cs (s.log cs) := by
  induction cs generalizing s with
  | nil => exact .nil s
  | cons c cs ih =>
    have hrun : (s.run [c]).session = s.advance c :=
      congrArg Report.session (run_eq_of_wellFormed h [c])
    have rest := ih (s.advance c) (after_wellFormed h [c])
    rw [← hrun] at rest
    have logged := Logged.cons (page_spec h c) rest
    rw [hrun] at logged
    exact logged

/-- The rolls on record are all that several commands do to the dice. -/
theorem log_thrown (cs : List Command) (s : Session) :
    Thrown s.dice ((s.log cs).filterMap Record.roll?) (s.after cs).dice := by
  induction cs generalizing s with
  | nil => exact .nil s.dice
  | cons c cs ih =>
    have first := c.exec_thrown s.env s.dice
    rw [← page_rolls] at first
    rw [log, ← page, List.filterMap_append]
    exact first.append (ih (s.advance c))

end Session

/-! ### The dice of a run -/

/-- The dice that are drawn for a roll. -/
def Roll.dice (r : Roll) : List Nat :=
  if r.sides = 0 then [] else List.replicate r.count.toNat r.sides.toNat

/-- The dice of rolls, one after another, show the faces of these. -/
theorem Thrown.draw {d d' : Dice} {rolls : List Roll} (h : Thrown d rolls d') :
    d.draw (rolls.flatMap Roll.dice) = (rolls.flatMap Roll.draws, d') := by
  induction h with
  | nil d => simp only [List.flatMap_nil, Dice.draw]
  | @cons d d₁ d' r rolls hcount hsides hfaces _ ih =>
    have first : d.draw r.dice = (r.draws, d₁) := by
      unfold Roll.dice Roll.draws
      by_cases hs : r.sides = 0
      · rw [Dice.faces, if_pos (by omega)] at hfaces
        rw [if_pos hs, if_pos hs, Dice.draw, (Prod.mk.inj hfaces).2]
      · rw [Dice.faces_eq_draw (by omega)] at hfaces
        rw [if_neg hs, if_neg hs, hfaces]
    rw [List.flatMap_cons, List.flatMap_cons, Dice.draw_append, first, ih]

/-- Over well-formed values the log of a run has a page for every command, in order: the line that
    opens it, one for each pool of its evaluation with the faces of that pool, and one for the change
    it has made or for the failure that is diagnosed. The faces on record, but for those of dice
    without sides, are what the dice of the session show when they are drawn one after another, and
    no others are drawn. -/
theorem run_logged (s : Session) (h : s.env.WellFormed) (cs : List Command) :
    let rolls := (s.run cs).records.filterMap Record.roll?
    s.Logged cs (s.run cs).records ∧
      s.dice.draw (rolls.flatMap Roll.dice) =
        (rolls.flatMap Roll.draws, (s.run cs).session.dice) := by
  rw [Session.run_eq_of_wellFormed h cs]
  exact ⟨Session.log_logged cs s h, (Session.log_thrown cs s).draw⟩

/-- A change, a failure after a roll, an object that is no command and another change, from any state
    of the dice. -/
theorem mixed_run_logged :
    let dice : Expr := .op .dice (some (.lit (.int 3) rfl)) (some (.lit (.int 0) rfl))
    let cs : List Command := [.statement (.assign "x" dice),
      .expression (.op .plus (some dice) (some (.var "y"))), .foreign .absent,
      .statement (.delete "x")]
    ∀ d, (Session.start Env.initial d).env.WellFormed ∧
      ((Session.start Env.initial d).run cs).records.map Record.line =
        [(.debug, "statement Assign"), (.debug, "rolled 3d0 -> [0, 0, 0]"),
          (.debug, "assigned x = [0, 0, 0]"), (.debug, "expression Op"),
          (.debug, "rolled 3d0 -> [0, 0, 0]"),
          (.info, "command failed: Undefined identifier 'y'"),
          (.info, "command failed: Tried to create a malformed command: " ++
            "NoneType is not a command"),
          (.debug, "statement Delete"), (.debug, "deleted x")] ∧
      (Session.start Env.initial d).Logged cs ((Session.start Env.initial d).run cs).records := by
  intro dice cs d
  have h : (Session.start Env.initial d).env.WellFormed := fun name v hv => nomatch hv
  exact ⟨h, rfl, (run_logged (Session.start Env.initial d) h cs).1⟩

/-! ### What can be written -/

/-- A roll has at least one number with too many digits to be written one by one. -/
def Roll.Wide (r : Roll) : Prop :=
  Number.isUnwritable r.count = true ∨ Number.isUnwritable r.sides = true

/-- No number that is nearer to zero has more digits. -/
theorem isUnwritable_of_le {m n : Int} (h0 : 0 ≤ m) (h : m ≤ n) (hn : Number.isUnwritable n = false) :
    Number.isUnwritable m = false := by
  rw [Number.isUnwritable, decide_eq_false_iff_not] at hn ⊢
  omega

theorem Form.defect?_int {n : Int} (h : Number.isUnwritable n = false) : (Form.int n).defect? = none := by
  simp [Form.defect?, Form.writable, h]

/-- A roll that has been made can be written, if its two numbers can. -/
theorem Roll.Made.defect? {env : Env} {r : Roll} (h : r.Made env) (narrow : ¬r.Wide) :
    (Record.rolled r).defect? = none := by
  rw [Wide, not_or, Bool.not_eq_true, Bool.not_eq_true] at narrow
  rw [Record.defect?, Form.firstDefect?_eq_none_iff, List.forall_mem_cons, List.forall_mem_cons]
  refine ⟨Form.defect?_int narrow.1, Form.defect?_int narrow.2, fun f hf => ?_⟩
  obtain ⟨x, hx, rfl⟩ := List.mem_map.mp hf
  exact Form.defect?_int (isUnwritable_of_le (h.faces x hx).1 (h.faces x hx).2 narrow.2)

/-- A record of a roll is one of a roll that has been made. -/
theorem Command.exec_made (c : Command) (env : Env) (d : Dice) {r : Roll}
    (h : Record.rolled r ∈ (c.exec env d).records) : r.Made env := by
  have hr : r ∈ (c.exec env d).records.filterMap Record.roll? := List.mem_filterMap.mpr ⟨_, h, rfl⟩
  cases c with
  | expression e =>
    rw [exec_expression_rolls] at hr
    exact e.eval_made env d r hr
  | statement s =>
    rw [exec_statement_rolls] at hr
    cases s with
    | assign name e =>
      rw [Stmt.mutation_assign] at hr
      exact e.eval_made env d r hr
    | _ => exact absurd hr List.not_mem_nil
  | foreign kind => exact absurd h List.not_mem_nil

/-- A record of a change is one of a change that binds a well-formed value, if it binds one. -/
theorem Command.exec_changed {env : Env} (h : env.WellFormed) (c : Command) (d : Dice) {name : String}
    {v : Value} (hv : Record.changed (.assign name v) ∈ (c.exec env d).records) :
    v.wellFormed = true := by
  cases c with
  | expression e =>
    rcases List.mem_cons.mp hv with hv | hv
    · cases hv
    · obtain ⟨_, -, hv⟩ := List.mem_map.mp hv
      cases hv
  | statement s =>
    have settled := Stmt.mutation_in Fragment.whole_closed (Env.in_whole_iff.mpr h)
      (Command.statement s).in_whole d
    rw [exec_statement_records] at hv
    rcases List.mem_cons.mp hv with hv | hv
    · cases hv
    rcases List.mem_append.mp hv with hv | hv
    · obtain ⟨_, -, hv⟩ := List.mem_map.mp hv
      cases hv
    · obtain ⟨m, hm, hv⟩ := List.mem_map.mp hv
      cases hv
      rcases ho : (s.mutation env d).outcome with f | m' <;> rw [ho] at hm settled
      · cases hm
      · obtain rfl := List.mem_singleton.mp hm
        exact Value.In.wellFormed settled
  | foreign kind => exact absurd hv List.not_mem_nil

/-- What a command puts on record can be written, but for wide rolls. -/
theorem Command.exec_written {env : Env} (h : env.WellFormed) (c : Command) (d : Dice) :
    ∀ r ∈ (c.exec env d).records, r.defect? = none ∨ ∃ roll, r = .rolled roll ∧ roll.Wide := by
  intro r hr
  cases r with
  | rolled roll =>
    by_cases wide : roll.Wide
    · exact .inr ⟨roll, rfl, wide⟩
    · exact .inl ((c.exec_made env d hr).defect? wide)
  | changed m =>
    cases m with
    | assign name v => exact .inl (Value.defect?_of_wellFormed v (c.exec_changed h d hr))
    | _ => exact .inl rfl
  | _ => exact .inl rfl

/-- Over well-formed values every record of a run can be written, however many digits there are in the values
    that are bound. Only a roll may be too wide for that. -/
theorem Session.run_written {s : Session} (h : s.env.WellFormed) (cs : List Command) :
    ∀ r ∈ (s.run cs).records, r.defect? = none ∨ ∃ roll, r = .rolled roll ∧ roll.Wide := by
  rw [run_eq_of_wellFormed h]
  show ∀ r ∈ s.log cs, _
  induction cs generalizing s with
  | nil => exact fun r hr => absurd hr List.not_mem_nil
  | cons c cs ih =>
    intro r hr
    rw [log] at hr
    rcases List.mem_append.mp hr with hr | hr
    · rcases List.mem_append.mp hr with hr | hr
      · exact c.exec_written h s.dice r hr
      · rcases ho : s.outcome c with (e | x) | w <;> rw [ho] at hr
        · rw [List.mem_singleton.mp hr]
          exact .inl rfl
        · exact absurd hr List.not_mem_nil
        · exact absurd hr List.not_mem_nil
    · exact ih (after_wellFormed h [c]) r hr

end DiceNotation
