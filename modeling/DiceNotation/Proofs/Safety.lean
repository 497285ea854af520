import DiceNotation.Proofs.Evaluation
import DiceNotation.Proofs.History

/-!
Sessions are safe.

On the unlimited host no command ends in a defect in an environment of well-formed values. A statement
gives nothing, an expression a well-formed value, and whatever else happens is an error of the notation,
however the functions are defined and whatever objects of another kind stand in the trees
(`Command.exec_answers`). So a run gets through all of its commands (`Session.run_eq_of_wellFormed`), and
the values that it binds and keeps are well formed again. The step is one command in a closed fragment
(`Command.exec_in`).
-/

namespace DiceNotation

open Unlimited

open Outcome

variable {F : Fragment} {fault : Form → Fault → Prop}

/-! ### Commands in a fragment -/

/-- The expressions, bodies and paths of a statement are in the fragment. -/
def Stmt.In (F : Fragment) : Stmt → Prop
  | .assign _ e => e.In F
  | .define _ f => f.body.In F
  | .run path | .save path => F.name path.shown
  | .delete _ | .clear | .bare | .foreign _ => True

/-- The command is in the fragment. -/
def Command.In (F : Fragment) : Command → Prop
  | .statement s => s.In F
  | .expression e => e.In F
  | .foreign _ => True

/-- What the change binds is in the fragment. -/
def Mutation.In (F : Fragment) : Mutation → Prop
  | .assign _ v => v.In F
  | .declare _ f => f.body.In F
  | .delete _ | .clear => True

/-- The failures of commands: those of evaluations, and what no command can do. -/
inductive Refused (name : String → Prop) (fault : Form → Fault → Prop) : Failure → Prop
  | raised {f : Failure} : Raised name fault f → Refused name fault f
  | run {path : Path} : name path.shown →
    Refused name fault (.error (.unimplemented ("run " ++ path.shown)))
  | save {path : Path} : name path.shown →
    Refused name fault (.error (.unimplemented ("save " ++ path.shown)))
  | bare : Refused name fault (.error (.unimplemented Stmt.bare.kind.name))
  | notStmt (kind : Kind) :
    Refused name fault (.error (.malformed (kind.name ++ " is not a statement")))
  | notCommand (kind : Kind) :
    Refused name fault (.error (.malformed (kind.name ++ " is not a command")))

/-- No defect is among the failures of commands. -/
theorem Refused.isError {name : String → Prop} {f : Failure} (h : Refused name fault f) :
    ∃ e, f = .error e := by
  cases h with
  | raised h => exact h.isError
  | _ => exact ⟨_, rfl⟩

theorem Env.In.apply {env : Env} (h : env.In F) {m : Mutation} (hm : m.In F) :
    (env.apply m).In F := by
  cases m with
  | assign name v => exact ⟨Bindings.forall_bind h.vars hm name, Bindings.forall_release h.funs name⟩
  | declare name f => exact ⟨Bindings.forall_release h.vars name, Bindings.forall_bind h.funs hm name⟩
  | delete name => exact ⟨Bindings.forall_release h.vars name, Bindings.forall_release h.funs name⟩
  | clear => exact ⟨Bindings.forall_empty, Bindings.forall_empty⟩

theorem Stmt.mutation_in (hF : F.Closed fault) {env : Env} (henv : env.In F) {s : Stmt}
    (hs : s.In F) : Eval.Ensures (Refused F.name fault) (Mutation.In F) (s.mutation env) := by
  cases s with
  | assign name e =>
    have he : Eval.Ensures (Refused F.name fault) (Value.In F) (e.eval env) :=
      fun d => (e.eval_in hF henv hs d).imp (fun _ => .raised) fun _ h => h
    exact he.bind fun v hv => Eval.ensures_pure hv
  | define name f => exact Eval.ensures_pure hs
  | delete name => exact Eval.ensures_pure trivial
  | clear => exact Eval.ensures_pure trivial
  | run path => exact Eval.ensures_fail (.run hs)
  | save path => exact Eval.ensures_fail (.save hs)
  | bare => exact Eval.ensures_fail .bare
  | foreign kind => exact Eval.ensures_fail (.notStmt kind)

/-- What a command gives: a statement nothing, an expression a value of the fragment. -/
def Command.Yields (F : Fragment) : Command → Option Value → Prop
  | .statement _, w => w = none
  | .expression _, w => ∃ v, w = some v ∧ v.In F
  | .foreign _, _ => False

/-- A command in a closed fragment gives what it should or is refused, and the environment stays in
    the fragment. -/
theorem Command.exec_in (hF : F.Closed fault) {env : Env} (henv : env.In F) {c : Command}
    (hc : c.In F) (d : Dice) :
    Ensures (Refused F.name fault) (c.Yields F) (c.exec env d).outcome ∧
      (c.exec env d).env.In F := by
  cases c with
  | statement s =>
    have h := Stmt.mutation_in hF henv hc d
    rw [exec_statement_outcome, exec_statement_env]
    rcases hm : (s.mutation env d).outcome with f | m
    · rw [hm] at h
      rw [s.exec_env_of_error env d hm]
      exact ⟨h, henv⟩
    · rw [hm] at h
      rw [s.exec_env_of_ok env d hm]
      exact ⟨rfl, henv.apply h⟩
  | expression e =>
    have h := e.eval_in hF henv hc d
    refine ⟨(h.imp (fun _ => .raised) fun _ h => h).map fun v hv => ?_, henv⟩
    exact ⟨v, hv.given, hv⟩
  | foreign kind => exact ⟨Refused.notCommand kind, henv⟩

/-- The environment of a session stays in the fragment from command to command. -/
theorem Session.after_in (hF : F.Closed fault) : ∀ {cs : List Command} {s : Session},
    s.env.In F → (∀ c ∈ cs, c.In F) → (s.after cs).env.In F
  | [], _, h, _ => h
  | c :: _, s, h, hcs => by
    obtain ⟨hc, hcs⟩ := List.forall_mem_cons.mp hcs
    exact after_in hF (s := s.advance c) (c.exec_in hF h hc s.dice).2 hcs

/-- What the commands of a session come to, each in its turn. -/
theorem Session.outcomes_in (hF : F.Closed fault) : ∀ {cs : List Command} {s : Session},
    s.env.In F → (∀ c ∈ cs, c.In F) →
    ∀ o ∈ s.outcomes cs, Ensures (Refused F.name fault) (fun w => ∀ v ∈ w, v.In F) o
  | [], _, _, _, _, ho => nomatch ho
  | c :: cs, s, h, hcs, o, ho => by
    obtain ⟨hc, hcs⟩ := List.forall_mem_cons.mp hcs
    have step := c.exec_in hF h hc s.dice
    rcases List.mem_cons.mp ho with rfl | ho
    · refine step.1.imp (fun _ h => h) fun w hw v hv => ?_
      cases c with
      | statement => cases hw; cases hv
      | expression =>
        obtain ⟨_, rfl, hw⟩ := hw
        exact Option.some.inj hv ▸ hw
      | foreign => exact hw.elim
    · exact outcomes_in hF (s := s.advance c) step.2 hcs o ho

/-! ### All commands -/

/-- A fragment with all numbers is closed, whatever it says of names. -/
theorem Fragment.closed_of_all (hnumber : ∀ n, F.number n)
    (hfault : ∀ op, Fragment.Sums op → ∀ f, fault op f) : F.Closed fault := by
  have settles : ∀ op, Fragment.Sums op → ∀ x : Except Fault Number,
      Number.Settles F.number (fault op) x := by
    rintro op hop (f | n)
    · exact hfault op hop f
    · exact hnumber n
  refine ⟨fun _ => hnumber _, fun _ _ => hnumber _, fun op hop _ _ => settles op hop _, ?_⟩
  intro o _
  cases o with
  | dice => trivial
  | minus => exact ⟨fun _ _ _ _ => settles _ (.operator _) _, fun _ _ => settles _ (.operator _) _⟩
  | _ => exact fun _ _ _ _ => settles _ (.operator _) _

theorem Fragment.whole_closed : Fragment.whole.Closed fun _ _ => True :=
  closed_of_all (fun _ => trivial) fun _ _ _ => trivial

theorem Command.in_whole (c : Command) : c.In .whole := by
  cases c with
  | statement s => cases s with
    | assign name e => exact e.in_whole
    | define name f => exact f.body.in_whole
    | _ => trivial
  | expression e => exact e.in_whole
  | foreign kind => trivial

/-- The values of all variables are well formed. -/
def Env.WellFormed (env : Env) : Prop :=
  ∀ name v, env.vars.get? name = some v → v.wellFormed = true

theorem Env.in_whole_iff {env : Env} : env.In .whole ↔ env.WellFormed :=
  ⟨fun h name v hv => (h.vars name v hv).wellFormed,
    fun h => ⟨fun name v hv => (Value.in_whole_iff v).mpr (h name v hv), fun _ f _ => f.body.in_whole⟩⟩

/-- What a command may come to: nothing if it is a statement, a well-formed value if it is an
    expression, or an error of the notation. -/
inductive Command.Answers : Command → Outcome (Option Value) → Prop
  | done (s : Stmt) : Answers (.statement s) (.ok none)
  | value (e : Expr) {v : Value} : v.wellFormed = true → Answers (.expression e) (.ok (some v))
  | refused (c : Command) (e : Error) : Answers c (.error (.error e))

/-- An answer has only well-formed values in it, and is no defect. -/
theorem Command.Answers.ensures {c : Command} {o : Outcome (Option Value)} (h : c.Answers o) :
    Ensures (fun f => ∃ e, f = .error e) (fun w => ∀ v ∈ w, v.wellFormed = true) o := by
  cases h with
  | done s => exact fun v hv => by cases hv
  | value e hv => exact fun w hw => Option.some.inj hw ▸ hv
  | refused c e => exact ⟨e, rfl⟩

theorem Command.exec_answers {env : Env} (h : env.WellFormed) (c : Command) (d : Dice) :
    c.Answers (c.exec env d).outcome := by
  have step := (c.exec_in Fragment.whole_closed (Env.in_whole_iff.mpr h) c.in_whole d).1
  rcases ho : (c.exec env d).outcome with f | w <;> rw [ho] at step
  · obtain ⟨e, rfl⟩ := Refused.isError step
    exact .refused c e
  · cases c with
    | statement s =>
      obtain rfl : w = none := step
      exact .done s
    | expression e =>
      obtain ⟨v, rfl, hv⟩ := step
      exact .value e hv.wellFormed
    | foreign kind => exact step.elim

theorem Command.exec_env_wellFormed {env : Env} (h : env.WellFormed) (c : Command) (d : Dice) :
    (c.exec env d).env.WellFormed :=
  Env.in_whole_iff.mp (c.exec_in Fragment.whole_closed (Env.in_whole_iff.mpr h) c.in_whole d).2

namespace Session

variable {s : Session}

theorem after_wellFormed (h : s.env.WellFormed) (cs : List Command) :
    (s.after cs).env.WellFormed :=
  Env.in_whole_iff.mp <|
    after_in Fragment.whole_closed (Env.in_whole_iff.mpr h) fun c _ => c.in_whole

theorem outcomes_wellFormed (h : s.env.WellFormed) (cs : List Command) :
    ∀ o ∈ s.outcomes cs, Ensures (fun f => ∃ e, f = .error e)
      (fun w => ∀ v ∈ w, v.wellFormed = true) o := fun o ho =>
  (outcomes_in Fragment.whole_closed (Env.in_whole_iff.mpr h) (fun c _ => c.in_whole) o ho).imp
    (fun _ => Refused.isError) fun _ hw v hv => (hw v hv).wellFormed

/-- Among well-formed values a run executes all of its commands. -/
theorem run_eq_of_wellFormed (h : s.env.WellFormed) (cs : List Command) :
    s.run cs = ⟨.ok ((s.outcomes cs).filterMap Outcome.value?), s.after cs, s.log cs⟩ := by
  refine s.run_eq cs ?_
  rintro _ ho ⟨d, rfl⟩
  obtain ⟨e, he⟩ := outcomes_wellFormed h cs _ ho
  cases he

end Session

end DiceNotation
