import DiceNotation.Proofs.Failures
import DiceNotation.Proofs.Rolls
import DiceNotation.Proofs.Safety

/-!
What comes of a session on a host.

On any host an expression comes to what it comes to on the unlimited one, or the host gives up. Which of
the two it is is decided by what the host is asked for: to make the rolls of the expression, and to write
the limit that its failure names, if it names one (`Host.Serves`). The step is about evaluations one after
another (`Host.Follows.bind`), and calls are followed by induction on the depth that is left.

So what is shown of sessions on the unlimited host holds on every host that serves their commands
(`Session.run_of_served`). Among well-formed values no command ends in a defect there, and therefore a
session is contained on a host exactly if the host serves its commands (`contained_iff_served`). The host
of programs does so under ordinary limits, if no die is enormous (`Session.contained_of_ordinary`).
-/

namespace DiceNotation

open Outcome

section

variable {host : Host} {env : Env} {α β : Type}

/-! ### What a host is asked for -/

/-- If the failure is a refusal beyond a limit, the host can write the limit. -/
structure Host.Tells (host : Host) (env : Env) (f : Failure) : Prop where
  depth : ∀ name : String, f = .error
    (.invalidOperation name ("call depth exceeded " ++ toString env.maxCallDepth)) →
      host.writes env.maxCallDepth = true
  dice : f = .error (.invalidOperation InfixOp.dice
    ("cannot roll more than " ++ toString env.maxRollCount ++ " dice")) →
      host.writes env.maxRollCount = true

/-- The host can make the rolls and write the limit that a failure names. -/
structure Host.Serves (host : Host) (env : Env) (t : Trace α) : Prop where
  rolls : ∀ r ∈ t.rolls, rollDefect? r.count r.sides = none
  failure : ∀ f, t.outcome = .error f → host.Tells env f

/-- Other errors name no limit. -/
theorem Host.Tells.of_ne {e : Error} (h : ∀ op detail, e ≠ .invalidOperation op detail) :
    host.Tells env (.error e) :=
  ⟨fun _ equal => absurd (Failure.error.inj equal) (h _ _),
    fun equal => absurd (Failure.error.inj equal) (h _ _)⟩

theorem Host.tells_defect (x : Defect) : host.Tells env (.defect x) := by
  refine ⟨fun _ h => ?_, fun h => ?_⟩ <;> cases h

theorem detail_eq {op op' : Form} {s t : String}
    (h : Failure.error (.invalidOperation op s) = .error (.invalidOperation op' t)) : s = t := by
  injection h with h
  injection h with _ h
  exact Form.text.inj h

/-- A text does not begin as another does whose first character is a different one. -/
theorem ne_append_of_head {s t : String} {a b : Char} {as bs : List Char} (hs : s.toList = a :: as)
    (ht : t.toList = b :: bs) (h : a ≠ b) (u : String) : s ≠ t ++ u := by
  rintro rfl
  rw [String.toList_append, ht, List.cons_append] at hs
  exact h (List.cons.inj hs).1.symm

/-- Both refusals have details that begin with the same character. -/
theorem Host.Tells.of_head {op : Form} {detail : String} {a : Char} {as : List Char}
    (hdetail : detail.toList = a :: as) (h : a ≠ 'c') :
    host.Tells env (.error (.invalidOperation op detail)) := by
  refine ⟨fun _ equal => ?_, fun equal => ?_⟩
  · exact absurd (detail_eq equal) (ne_append_of_head hdetail rfl h _)
  · have other := detail_eq equal
    rw [String.append_assoc] at other
    exact absurd other (ne_append_of_head hdetail rfl h _)

/-- What is neither a roll nor a call of a user function names no limit. -/
theorem Elementary.tells {f : Failure} (h : Elementary f) : host.Tells env f := by
  cases h with
  | defect x => exact Host.tells_defect x
  | fault op f =>
    cases f with
    | zeroDivision => exact .of_ne (by simp [Fault.toError])
    | tooLarge => exact .of_head rfl (by decide)
    | notReal => exact .of_head rfl (by decide)
  | noValues b => exact .of_head rfl (by decide)
  | _ => exact .of_ne (by simp)

/-! ### Evaluations on two hosts -/

/-- What is asked for by a part of an evaluation is asked for by all of it. -/
theorem Host.Serves.of_bind {x : Eval α} {f : α → Eval β} {d : Dice}
    (h : host.Serves env ((x >>= f) d)) : host.Serves env (x d) := by
  rcases hx : x d with ⟨e | a, d', rolls⟩
  · rw [Eval.bind_error hx] at h
    exact ⟨h.rolls, fun g hg => h.failure g (congrArg Except.error (Except.error.inj hg))⟩
  · rw [Eval.bind_ok hx] at h
    refine ⟨fun r hr => h.rolls r (List.mem_append_left _ hr), fun g hg => ?_⟩
    cases hg

theorem Host.Serves.of_bind_ok {x : Eval α} {f : α → Eval β} {d d' : Dice} {a : α}
    {rolls : List Roll} (h : host.Serves env ((x >>= f) d)) (hx : x d = ⟨.ok a, d', rolls⟩) :
    host.Serves env (f a d') := by
  rw [Eval.bind_ok hx] at h
  exact ⟨fun r hr => h.rolls r (List.mem_append_right _ hr), h.failure⟩

/-- The failure of a host that is not able to do something. -/
def Outcome.GivenUp (o : Outcome α) : Prop :=
  o = .error (.defect .wrongValue) ∨ o = .error (.defect .overflow)

theorem Outcome.GivenUp.isDefect {o : Outcome α} (h : o.GivenUp) : o.IsDefect :=
  h.elim (fun h => ⟨_, h⟩) fun h => ⟨_, h⟩

theorem Outcome.GivenUp.map {o : Outcome α} (h : o.GivenUp) (f : α → β) :
    Outcome.GivenUp (o.map f) := by
  rcases h with rfl | rfl
  · exact .inl rfl
  · exact .inr rfl

/-- The first evaluation is the second, but for what the host does not serve. -/
def Host.Follows (host : Host) (env : Env) (x y : Eval α) : Prop :=
  ∀ d, x d = y d ∨ ¬host.Serves env (y d) ∧ (x d).outcome.GivenUp

namespace Host.Follows

theorem refl (x : Eval α) : host.Follows env x x := fun _ => .inl rfl

theorem bind {x y : Eval α} {f g : α → Eval β} (hx : host.Follows env x y)
    (hf : ∀ a, host.Follows env (f a) (g a)) : host.Follows env (x >>= f) (y >>= g) := by
  intro d
  rcases hx d with same | ⟨unserved, givenUp⟩
  · rcases hy : y d with ⟨e | a, d', rolls⟩
    · rw [Eval.bind_error hy, Eval.bind_error (same.trans hy)]
      exact .inl rfl
    · rcases hf a d' with later | ⟨unserved, givenUp⟩
      · rw [Eval.bind_ok hy, Eval.bind_ok (same.trans hy), later]
        exact .inl rfl
      · refine .inr ⟨fun h => unserved (h.of_bind_ok hy), ?_⟩
        rw [Eval.bind_ok (same.trans hy)]
        exact givenUp
  · refine .inr ⟨fun h => unserved h.of_bind, ?_⟩
    rcases hxd : x d with ⟨e | a, d', rolls⟩ <;> rw [hxd] at givenUp
    · rw [Eval.bind_error hxd]
      exact givenUp.imp (fun h => congrArg Except.error (Except.error.inj h))
        fun h => congrArg Except.error (Except.error.inj h)
    · obtain ⟨x, hx⟩ := givenUp.isDefect
      cases hx

theorem composed (host : Host) (env : Env) : Composed fun _ x y => host.Follows env x y :=
  ⟨fun o => refl (Eval.lift o), bind⟩

/-- Bodies are looked at under the limits of the caller. -/
theorem of_scope {bindings : List (String × Value)} {x y : Eval α}
    (h : host.Follows (env.scope bindings) x y) : host.Follows env x y := fun d =>
  (h d).imp id fun ⟨unserved, givenUp⟩ => ⟨fun served => unserved
    ⟨served.rolls, fun f hf => ⟨(served.failure f hf).depth, (served.failure f hf).dice⟩⟩, givenUp⟩

end Host.Follows

/-- A limit that is reached is written, or the host gives up. -/
theorem refuseBeyond_follows {limit : Int} {e : Error}
    (h : host.Tells env (.error e) → host.writes limit = true) :
    host.Follows env (Eval.lift (@refuseBeyond host α limit e))
      (Eval.lift (@refuseBeyond .unlimited α limit e)) := by
  intro d
  rw [refuseBeyond_unlimited]
  unfold refuseBeyond
  by_cases hw : host.writes limit = true
  · rw [if_pos hw]
    exact .inl rfl
  · rw [if_neg hw]
    exact .inr ⟨fun served => hw (h (served.failure _ rfl)), .inl rfl⟩

theorem rollDefect?_givenUp {count sides : Int} {x : Defect}
    (h : @rollDefect? host count sides = some x) :
    Outcome.GivenUp (.error (.defect x) : Outcome α) := by
  unfold rollDefect? at h
  split at h
  · split at h <;> cases h
    exact .inr rfl
  split at h
  · cases h
  split at h
  · cases h
    exact .inl rfl
  split at h <;> cases h
  exact .inr rfl

theorem Env.rollOperands_follows (env : Env) (count sides : Int) :
    host.Follows env (@rollOperands host env count sides) (@rollOperands .unlimited env count sides) := by
  unfold rollOperands
  by_cases hc : count < 0
  · rw [if_pos hc, if_pos hc]
    exact .refl _
  rw [if_neg hc, if_neg hc]
  by_cases hs : sides < 0
  · rw [if_pos hs, if_pos hs]
    exact .refl _
  rw [if_neg hs, if_neg hs]
  intro d
  unfold roll
  by_cases hm : env.maxRollCount < count
  · rw [if_pos hm, if_pos hm]
    exact refuseBeyond_follows (fun tells => tells.dice rfl) d
  rw [if_neg hm, if_neg hm, rollDefect?_unlimited count (Int.not_lt.mp hs)]
  cases hx : rollDefect? count sides with
  | none => exact .inl rfl
  | some x =>
    refine .inr ⟨fun served => ?_, rollDefect?_givenUp hx⟩
    rw [served.rolls _ (List.mem_singleton.mpr rfl)] at hx
    cases hx

theorem Env.call_follows (env : Env)
    (hbody : env.callDepth < env.maxCallDepth → ∀ bindings (body : Expr),
      host.Follows (env.scope bindings) (@Expr.eval host (env.scope bindings) body)
        (@Expr.eval .unlimited (env.scope bindings) body)) (name : String) (args : List Value) :
    host.Follows env (@call host env name args) (@call .unlimited env name args) := by
  unfold call callWith
  cases env.funs.get? name with
  | none => cases env.builtins.get? name <;> exact .refl _
  | some f =>
    dsimp only
    by_cases hlen : args.length = f.arity
    · rw [if_neg (not_not_intro hlen), if_neg (not_not_intro hlen)]
      by_cases hd : env.maxCallDepth ≤ env.callDepth
      · rw [if_pos hd, if_pos hd]
        exact refuseBeyond_follows fun tells => tells.depth name rfl
      · rw [if_neg hd, if_neg hd]
        exact (hbody (Int.not_le.mp hd) _ f.body).of_scope
    · rw [if_pos hlen, if_pos hlen]
      exact .refl _

/-- On a host an expression comes to what it comes to on the unlimited one, as far as the host serves
    it. -/
theorem Expr.eval_follows (env : Env) (e : Expr) :
    host.Follows env (@eval host env e) (@eval .unlimited env e) := by
  induction env using Env.deeper_induct generalizing e with
  | step env ih =>
    rw [@eval_eq host, @eval_eq .unlimited]
    refine e.evalWith_related (Host.Follows.composed host env) (fun _ _ => rfl)
      (fun _ _ _ => env.rollOperands_follows) fun name exprs _ => ?_
    exact env.call_follows (fun hdeep bindings body => ih hdeep bindings body) name

/-- The two refusals are told apart by their details. -/
theorem depth_ne_dice {op op' : Form} {s t u : String} :
    Failure.error (.invalidOperation op ("call depth exceeded " ++ s)) ≠
      .error (.invalidOperation op' ("cannot roll more than " ++ t ++ u)) := by
  intro h
  have letters := congrArg String.toList (detail_eq h)
  simp [String.toList_append] at letters

/-- On a host a failure names no limit that the host cannot write. -/
theorem FailureRules.tells (host : Host) (env : Env) : FailureRules (host.Tells env) env where
  elementary h := h.tells
  roll count sides d := by
    refine env.rollOperands_cases count sides d ?_ ?_ ?_ ?_ ?_
    · exact fun _ => .of_ne (by simp)
    · exact fun _ _ => .of_ne (by simp)
    · refine fun _ _ _ => ensures_refuseBeyond (fun hw => ?_) (Host.tells_defect _)
      exact ⟨fun _ equal => absurd equal.symm depth_ne_dice, fun _ => hw⟩
    · exact fun _ _ _ x _ => Host.tells_defect x
    · exact fun _ _ _ _ _ _ _ => trivial
  arity name _ _ _ := .of_ne (by simp)
  depth name := by
    refine ensures_refuseBeyond (fun hw => ?_) (Host.tells_defect _)
    exact ⟨fun _ _ => hw, fun equal => absurd equal depth_ne_dice⟩

/-- A host serves whatever it comes to itself. -/
theorem Expr.eval_serves (env : Env) (e : Expr) (d : Dice) : host.Serves env (@eval host env e d) := by
  refine ⟨fun r hr => ?_, fun f hf => ?_⟩
  · exact (e.eval_made env d r hr).able
  · have tells := (FailureRules.tells host env).eval e d
    rw [hf] at tells
    exact tells

/-- On a host that serves it an expression comes to what it comes to on the unlimited one, and otherwise
    the host gives up. -/
theorem Expr.eval_on_host (host : Host) (env : Env) (e : Expr) (d : Dice) :
    (host.Serves env (@eval .unlimited env e d) → @eval host env e d = @eval .unlimited env e d) ∧
      (¬host.Serves env (@eval .unlimited env e d) → (@eval host env e d).outcome.GivenUp) := by
  rcases e.eval_follows env d with same | ⟨unserved, givenUp⟩
  · exact ⟨fun _ => same, fun unserved => absurd (same ▸ e.eval_serves env d) unserved⟩
  · exact ⟨fun served => absurd served unserved, fun _ => givenUp⟩

/-! ### Commands -/

/-- The host serves the expression of a command. -/
def Command.Served (host : Host) (env : Env) (d : Dice) (c : Command) : Prop :=
  ∀ e ∈ c.subject?, host.Serves env (@Expr.eval .unlimited env e d)

/-- A command that the host serves is executed as on the unlimited one. -/
theorem Command.exec_of_served {d : Dice} {c : Command} (h : c.Served host env d) :
    @exec host c env d = @exec .unlimited c env d := by
  cases c with
  | statement s =>
    have same : @Stmt.mutation host env s d = @Stmt.mutation .unlimited env s d := by
      cases s with
      | assign name e =>
        rw [@Stmt.mutation_assign host, @Stmt.mutation_assign .unlimited,
          (e.eval_on_host host env d).1 (h e rfl)]
      | _ => rfl
    unfold exec Stmt.exec
    simp only [same]
  | expression e =>
    unfold exec Eval.exec
    simp only [(e.eval_on_host host env d).1 (h e rfl)]
  | foreign kind => rfl

/-- At a command that it does not serve the host gives up, and the environment is as it was. -/
theorem Command.exec_of_unserved {d : Dice} {c : Command} (h : ¬c.Served host env d) :
    (@exec host c env d).outcome.GivenUp ∧ (@exec host c env d).env = env := by
  simp only [Served, Classical.not_forall] at h
  obtain ⟨e, he, unserved⟩ := h
  have givenUp := (e.eval_on_host host env d).2 unserved
  cases c with
  | statement s =>
    cases s with
    | assign name e' =>
      obtain rfl : e' = e := Option.some.inj he
      have stopped : (@Stmt.mutation host env (.assign name e') d).outcome.GivenUp := by
        rw [Stmt.mutation_assign]
        exact givenUp.map _
      rw [exec_statement_outcome, exec_statement_env]
      obtain ⟨x, hx⟩ := stopped.isDefect
      exact ⟨stopped.map _, Stmt.exec_env_of_error _ env d hx⟩
    | _ => cases he
  | expression e' =>
    obtain rfl : e' = e := Option.some.inj he
    exact ⟨givenUp.map _, rfl⟩
  | foreign kind => cases he

/-- A command answers exactly if the host serves it. -/
theorem Command.answers_iff_served (h : env.WellFormed) (c : Command) (d : Dice) :
    c.Answers (@exec host c env d).outcome ↔ c.Served host env d := by
  refine ⟨fun answers => Classical.not_not.mp fun unserved => ?_, fun served => ?_⟩
  · obtain ⟨x, hx⟩ := (c.exec_of_unserved unserved).1.isDefect
    rw [hx] at answers
    cases answers
  · rw [c.exec_of_served served]
    exact c.exec_answers h d

/-- Among well-formed values a command gives well-formed values on every host. -/
theorem Command.exec_wellFormed (h : env.WellFormed) (c : Command) (d : Dice) :
    Gives (fun w => ∀ v ∈ w, v.wellFormed = true) (@exec host c env d).outcome ∧
      (@exec host c env d).env.WellFormed := by
  by_cases served : c.Served host env d
  · rw [c.exec_of_served served]
    have answers := (c.exec_answers h d).ensures
    exact ⟨answers.imp (fun _ _ => trivial) fun _ h => h, c.exec_env_wellFormed h d⟩
  · obtain ⟨givenUp, kept⟩ := c.exec_of_unserved served
    obtain ⟨x, hx⟩ := givenUp.isDefect
    rw [hx, kept]
    exact ⟨trivial, h⟩

/-! ### Sessions -/

/-- No command of a session meets a defect: each comes to nothing, a well-formed value or an error of
    the notation. So after each of them, and after a run of those so far, which has executed them all,
    the values that are bound and kept are well formed. -/
structure Session.Contained [Host] (s : Session) (cs : List Command) : Prop where
  commands : ∀ as c bs, cs = as ++ c :: bs →
    c.Answers (c.exec (s.after as).env (s.after as).dice).outcome ∧
      ((s.after as).eval c).outcome = (c.exec (s.after as).env (s.after as).dice).outcome
  runs : ∀ as bs, cs = as ++ bs → (s.after as).env.WellFormed ∧
    ∃ vs, (∀ v ∈ vs, v.wellFormed = true) ∧ (s.run as).outcome = .ok vs ∧
      (s.run as).session = s.after as ∧ (s.after as).results = s.results ++ vs

namespace Session

variable {s : Session} {cs : List Command}

/-- The variables stay well formed on every host, from command to command. -/
theorem after_keeps_wellFormed [Host] : ∀ {cs : List Command} {s : Session}, s.env.WellFormed →
    (s.after cs).env.WellFormed
  | [], _, h => h
  | c :: _, s, h => after_keeps_wellFormed (s := s.advance c) (c.exec_wellFormed h s.dice).2

/-- The host serves the commands of a session, each in its turn. -/
def Served (host : Host) (s : Session) (cs : List Command) : Prop :=
  ∀ as c bs, cs = as ++ c :: bs → c.Served host (s.after as).env (s.after as).dice

theorem Served.nil : s.Served host [] := fun as c bs h => by simp at h

theorem Served.cons {c : Command} (hc : c.Served host s.env s.dice)
    (hcs : (s.advance c).Served host cs) : s.Served host (c :: cs)
  | [], _, _, h => by
    obtain rfl := (List.cons.inj h).1
    exact hc
  | _ :: as, c', bs, h => by
    obtain ⟨rfl, rest⟩ := List.cons.inj h
    exact hcs as c' bs rest

theorem Served.head {c : Command} (h : s.Served host (c :: cs)) : c.Served host s.env s.dice :=
  h [] c cs rfl

theorem Served.tail {c : Command} (h : s.Served host (c :: cs)) : (s.advance c).Served host cs :=
  fun as c' bs hcs => h (c :: as) c' bs (by rw [hcs, List.cons_append])

/-- The history has no part in it. -/
theorem Served.congr {t : Session} (henv : s.env = t.env) (hdice : s.dice = t.dice)
    (h : s.Served host cs) : t.Served host cs := by
  intro as c bs hcs
  obtain ⟨-, hsame, hsame'⟩ := outcomes_congr as henv hdice
  rw [← hsame, ← hsame']
  exact h as c bs hcs

/-- On a host that serves them commands run as on the unlimited one. -/
theorem run_of_served : ∀ {cs : List Command} {s : Session}, s.Served host cs →
    @run host s cs = @run .unlimited s cs
  | [], _, _ => rfl
  | c :: cs, s, h => by
    have first : @eval host s c = @eval .unlimited s c := by
      unfold eval perform
      rw [c.exec_of_served h.head]
    have rest : ∀ t : Session, t.env = (@eval host s c).session.env →
        t.dice = (@eval host s c).session.dice → @run host t cs = @run .unlimited t cs := by
      intro t henv hdice
      rw [eval_eq] at henv hdice
      exact run_of_served (Served.congr (s := s.advance c) henv.symm hdice.symm h.tail)
    unfold run
    rw [← first]
    dsimp only
    split
    · rw [rest _ rfl rfl]
    · rw [rest (Session.note _ _) rfl rfl]
    · rfl

theorem Contained.served (h : s.env.WellFormed) (contained : s.Contained cs) : s.Served host cs :=
  fun as c bs hcs => (c.answers_iff_served (after_keeps_wellFormed h) _).mp
    (contained.commands as c bs hcs).1

theorem Served.contained (h : s.env.WellFormed) (served : s.Served host cs) : s.Contained cs where
  commands as c bs hcs := by
    refine ⟨?_, ?_⟩
    · exact (c.answers_iff_served (after_keeps_wellFormed h) _).mpr (served as c bs hcs)
    · rw [eval_eq]
      rfl
  runs as bs hcs := by
    have answers : ∀ o ∈ s.outcomes as, ∃ c : Command, c.Answers o := by
      intro o ho
      obtain ⟨before, c, later, rfl, rfl⟩ := exists_of_mem_outcomes ho
      have servedThen := served before c (later ++ bs) (by rw [hcs, List.append_assoc, List.cons_append])
      exact ⟨c, (c.answers_iff_served (after_keeps_wellFormed h) _).mpr servedThen⟩
    have hrun := s.run_eq as fun o ho => by
      obtain ⟨c, hc⟩ := answers o ho
      rintro ⟨x, rfl⟩
      cases hc
    refine ⟨after_keeps_wellFormed h, (s.outcomes as).filterMap Outcome.value?, ?_, ?_, ?_, ?_⟩
    · intro v hv
      obtain ⟨o, ho, hov⟩ := List.mem_filterMap.mp hv
      obtain ⟨c, hc⟩ := answers o ho
      have gives := hc.ensures
      cases o with
      | error f => cases hov
      | ok w => exact gives v hov
    · rw [hrun]
    · rw [hrun]
    · exact results_after as s

end Session

end

/-! ### The host of programs -/

variable {env : Env}

/-- The limits of the environment are ordinary ones: they can be written, and as many dice as may be rolled
    at once can be counted. -/
structure Env.Ordinary (env : Env) : Prop where
  depth : Host.standard.writes env.maxCallDepth = true
  dice : Host.standard.writes env.maxRollCount = true
  count : env.maxRollCount < Scalar.countBound

theorem rollDefect?_standard {count sides : Int} (hc : 0 ≤ count) (hm : count < Scalar.countBound)
    (hs : 0 ≤ sides) (hbits : Number.bitLength sides.toNat < Host.bitBound) :
    @rollDefect? .standard count sides = none := by
  have fills : Host.standard.fills count = true := by
    refine Bool.and_eq_true_iff.mpr ⟨decide_eq_true ?_, decide_eq_true hm⟩
    exact Int.le_trans (Int.neg_nonpos_of_nonneg (Int.natCast_nonneg _)) hc
  have draws : Host.standard.draws (Number.bitLength sides.toNat) = true := decide_eq_true hbits
  unfold rollDefect?
  rw [fills, draws, if_neg (Int.not_lt.mpr hs), if_pos rfl, ite_self, ite_self]

/-- Under ordinary limits the host of programs serves expressions that roll no enormous dice. -/
theorem Env.Ordinary.serves (h : env.Ordinary) {e : Expr} {d : Dice}
    (hbits : ∀ r ∈ (@Expr.eval .unlimited env e d).rolls,
      Number.bitLength r.sides.toNat < Host.bitBound) :
    Host.standard.Serves env (@Expr.eval .unlimited env e d) := by
  refine ⟨fun r hr => ?_, fun _ _ => ⟨fun _ _ => h.depth, fun _ => h.dice⟩⟩
  obtain ⟨hcount, hlimit, hsides, -, -⟩ := @Expr.eval_made .unlimited env e d r hr
  exact rollDefect?_standard hcount (Int.lt_of_le_of_lt hlimit h.count) hsides (hbits r hr)

theorem Env.Ordinary.apply (h : env.Ordinary) (m : Mutation) : (env.apply m).Ordinary := by
  cases m <;> exact ⟨h.depth, h.dice, h.count⟩

theorem Env.Ordinary.exec [Host] (h : env.Ordinary) (c : Command) (d : Dice) :
    (c.exec env d).env.Ordinary := by
  cases c with
  | statement s =>
    rw [Command.exec_statement_env]
    rcases hm : (s.mutation env d).outcome with f | m
    · rw [s.exec_env_of_error env d hm]
      exact h
    · rw [s.exec_env_of_ok env d hm]
      exact h.apply m
  | expression e => exact h
  | foreign kind => exact h

theorem Env.Ordinary.after [Host] : ∀ {cs : List Command} {s : Session}, s.env.Ordinary →
    (s.after cs).env.Ordinary
  | [], _, h => h
  | c :: _, s, h => Env.Ordinary.after (s := s.advance c) (h.exec c s.dice)

/-- Under ordinary limits a session is contained on the host of programs, unless enormous dice are
    rolled in it. -/
theorem Session.contained_of_ordinary {s : Session} (h : s.env.WellFormed) (limits : s.env.Ordinary)
    {cs : List Command}
    (hbits : ∀ as c bs, cs = as ++ c :: bs → ∀ e ∈ c.subject?,
      ∀ r ∈ (@Expr.eval .unlimited (s.after as).env e (s.after as).dice).rolls,
        Number.bitLength r.sides.toNat < Host.bitBound) : s.Contained cs := by
  have served : s.Served Host.standard cs := by
    intro as c bs hcs e he
    have after : (s.after as).env.Ordinary := limits.after
    exact after.serves (hbits as c bs hcs e he)
  exact served.contained h

/-! ### Sessions of well-formed values -/

/-- On a host a session of well-formed values is contained exactly if the host serves its commands, which
    is to say that on the unlimited host the expression of each command makes only rolls that the host
    can make and fails at no limit that it cannot write. At any other command the host gives up, and the
    environment is as it was. In every case the values that are bound and kept after a run are well
    formed. -/
theorem contained_iff_served [host : Host] (s : Session) (h : s.env.WellFormed) (cs : List Command) :
    (s.Contained cs ↔ s.Served host cs) ∧
      (∀ as c bs, cs = as ++ c :: bs → ¬c.Served host (s.after as).env (s.after as).dice →
        (c.exec (s.after as).env (s.after as).dice).outcome.GivenUp ∧
          (c.exec (s.after as).env (s.after as).dice).env = (s.after as).env) ∧
      (s.run cs).session.env.WellFormed ∧
      ∃ vs, (∀ v ∈ vs, v.wellFormed = true) ∧ (s.run cs).session.results = s.results ++ vs := by
  refine ⟨⟨fun contained => contained.served h, fun served => served.contained h⟩, ?_, ?_⟩
  · exact fun as c bs _ unserved => c.exec_of_unserved unserved
  · obtain ⟨hend, vs, hvs, hresults, -⟩ := s.run_keeps h fun c _ env d h => c.exec_wellFormed h d
    exact ⟨hend, vs, hvs, hresults⟩

/-- Two dice, a function that calls itself until the limit, an operand that is no expression and a command
    that is none, under ordinary limits. -/
theorem runaway_and_foreign_contained :
    let env : Env := { Env.initial with
      vars := Bindings.empty.bind "x" (.list [.int 1, .text "a"])
      funs := Bindings.empty.bind "f" ⟨["n"], .op .plus (some (.call "f" [.var "n"])) none⟩
      maxCallDepth := 5 }
    let cs : List Command := [
      .expression (.op .dice (some (.lit (.int 2) rfl)) (some (.lit (.int 6) rfl))),
      .expression (.call "f" [.var "x"]),
      .statement (.assign "y" (.op .pow (some (.var "x")) (some (.foreign .flag)))),
      .foreign .absent]
    env.WellFormed ∧ ∀ d, (Session.start env d).Contained cs := by
  intro env cs
  have h : env.WellFormed := Bindings.forall_bind (fun name v hv => nomatch hv) (by decide) "x"
  have limits : env.Ordinary := by
    refine ⟨?_, ?_, ?_⟩ <;> decide +kernel
  have quiet : ∀ {e : Expr} {d : Dice}, (@Expr.eval .unlimited env e d).rolls = [] →
      Host.standard.Serves env (@Expr.eval .unlimited env e d) := by
    intro e d hrolls
    exact limits.serves fun r hr => absurd (hrolls ▸ hr) List.not_mem_nil
  have rolls : ∀ d, (@Expr.eval .unlimited env
      (.op .dice (some (.lit (.int 2) rfl)) (some (.lit (.int 6) rfl))) d).rolls =
        [⟨2, 6, (d.faces 2 6).1⟩] := fun d => rfl
  have bits : Number.bitLength (Int.toNat 6) < Host.bitBound := by decide
  refine ⟨h, fun d => (contained_iff_served (Session.start env d) h cs).1.mpr ?_⟩
  refine .cons ?_ (.cons ?_ (.cons ?_ (.cons ?_ .nil)))
  · intro e he
    cases he
    refine limits.serves fun r hr => ?_
    rw [rolls] at hr
    rw [List.mem_singleton.mp hr]
    exact bits
  · intro e he
    cases he
    exact quiet rfl
  · intro e he
    cases he
    exact quiet rfl
  · intro e he
    cases he

/-- Sessions of well-formed values are not all contained on the host of programs. Dice without sides may be
    too many for a list, and a limit may have too many digits for the error about it. -/
theorem wide_limits_uncontained :
    let wide : Env := { Env.initial with maxRollCount := Scalar.countBound }
    let low : Env := { Env.initial with maxRollCount := -Number.unwritable }
    let dice (count sides : Int) : Command :=
      .expression (.op .dice (some (.lit (.int count) rfl)) (some (.lit (.int sides) rfl)))
    wide.WellFormed ∧ low.WellFormed ∧ ∀ d,
      ((dice Scalar.countBound 0).exec wide d).outcome = .error (.defect .overflow) ∧
      ¬(Session.start wide d).Contained [dice Scalar.countBound 0] ∧
      ((dice 1 6).exec low d).outcome = .error (.defect .wrongValue) ∧
      ¬(Session.start low d).Contained [dice 1 6] := by
  intro wide low dice
  have escapes : ∀ {env : Env} {c : Command} {d : Dice} {x : Defect},
      (c.exec env d).outcome = .error (.defect x) → ¬(Session.start env d).Contained [c] := by
    intro env c d x hx contained
    have answers : c.Answers (c.exec env d).outcome := (contained.commands [] c [] rfl).1
    rw [hx] at answers
    cases answers
  have executed : ∀ env count sides d, ((dice count sides).exec env d).outcome =
      Except.map Value.given? (env.rollOperands count sides d).outcome := by
    intro env count sides d
    show Except.map Value.given? (Expr.eval env _ d).outcome = _
    rw [Expr.eval_eq]
    rfl
  have tooMany : ∀ d, ((dice Scalar.countBound 0).exec wide d).outcome = .error (.defect .overflow) := by
    intro d
    have fills : Host.standard.fills Scalar.countBound = false := by decide
    rw [executed, Env.rollOperands, if_neg (by decide), if_neg (by decide), Env.roll,
      if_neg (Int.lt_irrefl _), rollDefect?, if_pos rfl, fills]
    rfl
  have unwritable : ∀ d, ((dice 1 6).exec low d).outcome = .error (.defect .wrongValue) := by
    intro d
    have beyond : -(Number.unwritable : Int) < 1 := by decide +kernel
    have unwritten : ¬Host.standard.writes (-Number.unwritable) = true := by decide +kernel
    rw [executed, Env.rollOperands, if_neg (by decide), if_neg (by decide), Env.roll, if_pos beyond,
      refuseBeyond, if_neg unwritten]
    rfl
  have unbound : ∀ limit, { Env.initial with maxRollCount := limit }.WellFormed :=
    fun _ name v hv => nomatch hv
  exact ⟨unbound _, unbound _, fun d =>
    ⟨tooMany d, escapes (tooMany d), unwritable d, escapes (unwritable d)⟩⟩

end DiceNotation
