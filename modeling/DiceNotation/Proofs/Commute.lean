import DiceNotation.Proofs.Chance
import DiceNotation.Proofs.Namespace

/-!
Statements that can change places.

A statement changes what one name means, its target. Changes that touch no common name commute
(`Env.apply_comm`), and an expression comes to the same after a change of names that it does not
depend on (`Expr.eval_apply`). So two statements with different targets can be executed in either
order, if neither evaluates what depends on the target of the other or rolls dice: each comes to
what it comes to alone, whether it succeeds or fails, and both orders lead to the same bindings and
the same dice (`independent_statements_commute`).
-/

namespace DiceNotation

/-! ### Changes -/

/-- Every name means the same in both environments, and without their bindings they are equal. They
    differ at most in the order in which names were bound. -/
structure Env.Alike (env env' : Env) : Prop where
  vars : ∀ x, env.vars.get? x = env'.vars.get? x
  funs : ∀ x, env.funs.get? x = env'.funs.get? x
  rest : env.apply .clear = env'.apply .clear

theorem Env.Alike.refl (env : Env) : env.Alike env := ⟨fun _ => rfl, fun _ => rfl, rfl⟩

/-- A change is one of bindings alone, so clearing undoes it. -/
theorem Env.clear_apply (env : Env) (m : Mutation) :
    (env.apply m).apply .clear = env.apply .clear := by
  cases m <;> rfl

/-- The changes touch no common name. -/
def Mutation.Apart (m n : Mutation) : Prop := ∀ x, m.touches x = true → n.touches x = false

/-- It makes no difference which of the changes a name is looked up in first. -/
theorem Mutation.Apart.ite_comm {m n : Mutation} (h : m.Apart n) {α : Type} (x : String)
    (a b c : α) : (if n.touches x then a else if m.touches x then b else c) =
      if m.touches x then b else if n.touches x then a else c := by
  by_cases hm : m.touches x = true
  · simp [hm, h x hm]
  · simp [hm]

/-- Changes that touch no common name commute. -/
theorem Env.apply_comm (env : Env) {m n : Mutation} (h : m.Apart n) :
    ((env.apply m).apply n).Alike ((env.apply n).apply m) where
  vars x := by
    simp only [get?_vars_apply]
    exact h.ite_comm x _ _ _
  funs x := by
    simp only [get?_funs_apply]
    exact h.ite_comm x _ _ _
  rest := by simp only [clear_apply]

/-- The environment after a change, if there is one. -/
def Env.applyOk (env : Env) : Outcome Mutation → Env
  | .ok m => env.apply m
  | .error _ => env

theorem Env.applyOk_comm (env : Env) {o p : Outcome Mutation}
    (h : ∀ m n, o = .ok m → p = .ok n → m.Apart n) :
    ((env.applyOk o).applyOk p).Alike ((env.applyOk p).applyOk o) := by
  rcases o with f | m
  · exact .refl _
  · rcases p with f | n
    · exact .refl _
    · exact env.apply_comm (h m n rfl rfl)

/-- A change of names that an expression does not depend on makes no difference to it. -/
theorem Expr.eval_apply [Host] {env : Env} {m : Mutation} {e : Expr}
    (hreads : ∀ x, Reads env.funs x e → m.touches x = false)
    (hcalls : ∀ g, Calls env.funs g e → m.touches g = false) :
    e.eval (env.apply m) = e.eval env := by
  have rest := (env.clear_apply m).symm
  have agree : Agree e env (env.apply m) := by
    refine ⟨fun x hx => ?_, fun g hg => ?_, congrArg (·.builtins) rest,
      congrArg (·.maxCallDepth) rest, congrArg (·.maxRollCount) rest, congrArg (·.callDepth) rest⟩
    · rw [Env.get?_vars_apply, hreads x hx]
      rfl
    · rw [Env.get?_funs_apply, hcalls g hg]
      rfl
  exact agree.eval.symm

/-! ### Statements -/

namespace Stmt

/-- The name that the statement binds or releases, if it is about one. -/
def target? : Stmt → Option String
  | assign x _ | define x _ | delete x => some x
  | _ => none

/-- What the statement evaluates neither reads the variable nor calls the function of that name, and
    does not come to a roll. Only an assignment evaluates anything. A parameter is no variable to be
    read from outside, but a function is called by its name whatever the parameters are. -/
def Ignores (funs : Bindings Function) (y : String) : Stmt → Prop
  | assign _ e => ¬Reads funs y e ∧ ¬Calls funs y e ∧ ¬Rolls funs e
  | _ => True

variable [Host] {s t : Stmt} {env : Env} {d : Dice} {x y : String} {m : Mutation}

/-- The change that a statement makes touches its target alone. -/
theorem touches_of_mutation (hs : s.target? = some x) (h : (s.mutation env d).outcome = .ok m)
    (z : String) : m.touches z = (x == z) := by
  cases s with
  | assign name e =>
    obtain rfl := Option.some.inj hs
    rw [mutation_assign] at h
    cases ho : (e.eval env d).outcome with
    | error f => rw [ho] at h; cases h
    | ok v => rw [ho] at h; cases h; rfl
  | define name f | delete name =>
    obtain rfl := Option.some.inj hs
    cases h
    rfl
  | _ => cases hs

/-- A statement that rolls no dice makes one and the same change, or fails in one and the same way,
    whatever the dice. -/
theorem mutation_settled (h : s.Ignores env.funs y) : (s.mutation env).Settled := by
  cases s with
  | assign name e => exact (Expr.eval_settled h.2.2).bind fun v => ⟨_, rfl⟩
  | _ => exact ⟨_, rfl⟩

/-- A change of one name makes no difference to a statement that ignores the name. -/
theorem mutation_apply (h : s.Ignores env.funs y) (hm : ∀ z, m.touches z = (y == z)) :
    s.mutation (env.apply m) = s.mutation env := by
  cases s with
  | assign name e =>
    have untouched {P : String → Prop} (hy : ¬P y) (z : String) (hz : P z) :
        m.touches z = false := by
      rw [hm, beq_eq_false_iff_ne]
      rintro rfl
      exact hy hz
    rw [mutation, mutation, Expr.eval_apply (untouched h.1) (untouched h.2.1)]
  | _ => rfl

/-- What comes of a statement whose change is settled. -/
theorem exec_of_settled {o : Outcome Mutation} (h : s.mutation env = Eval.lift o) (d : Dice) :
    (s.exec env d).outcome = o.map (fun _ => ()) ∧ (s.exec env d).env = env.applyOk o ∧
      (s.exec env d).dice = d := by
  have outcome : (s.mutation env d).outcome = o := by rw [h]; rfl
  refine ⟨by rw [exec_outcome, outcome], ?_, by rw [exec_dice, h]; rfl⟩
  cases o with
  | ok m => exact s.exec_env_of_ok env d outcome
  | error f => exact s.exec_env_of_error env d outcome

/-- After one with a target that it ignores, a statement makes the change that it would make without
    it. -/
theorem mutation_exec (hs : s.target? = some x) (ht : t.Ignores env.funs x) (d : Dice) :
    t.mutation (s.exec env d).env = t.mutation env := by
  rcases hm : (s.mutation env d).outcome with f | m
  · rw [s.exec_env_of_error env d hm]
  · rw [s.exec_env_of_ok env d hm]
    exact mutation_apply ht (touches_of_mutation hs hm)

/-- One statement after another. -/
def execAfter (t s : Stmt) (env : Env) (d : Dice) : Step Unit :=
  let first := s.exec env d
  t.exec first.env first.dice

end Stmt

/-- Independent statements commute. Let two assignments, definitions or deletions have different
    targets, and let what each of them evaluates depend neither on the target of the other nor on
    dice. Then in either order each of them succeeds, or fails with the same error, and both orders
    end with the same variables and functions and the same dice. -/
theorem independent_statements_commute [Host] (env : Env) (s t : Stmt) {x y : String}
    (hs : s.target? = some x) (ht : t.target? = some y) (hxy : x ≠ y)
    (hsy : s.Ignores env.funs y) (htx : t.Ignores env.funs x) (d : Dice) :
    (s.exec env d).outcome = (s.execAfter t env d).outcome ∧
      (t.execAfter s env d).outcome = (t.exec env d).outcome ∧
      (t.execAfter s env d).env.Alike (s.execAfter t env d).env ∧
      (t.execAfter s env d).dice = (s.execAfter t env d).dice := by
  obtain ⟨o, ho⟩ := Stmt.mutation_settled hsy
  obtain ⟨p, hp⟩ := Stmt.mutation_settled htx
  have apart : ∀ m n, o = .ok m → p = .ok n → m.Apart n := by
    rintro m n rfl rfl z hz
    rw [Stmt.touches_of_mutation (d := d) hs (by rw [ho]; rfl), beq_iff_eq] at hz
    rw [Stmt.touches_of_mutation (d := d) ht (by rw [hp]; rfl), beq_eq_false_iff_ne, ← hz]
    exact hxy.symm
  have hsAfter := (Stmt.mutation_exec ht hsy d).trans ho
  have htAfter := (Stmt.mutation_exec hs htx d).trans hp
  obtain ⟨sOutcome, sEnv, sDice⟩ := Stmt.exec_of_settled ho d
  obtain ⟨tOutcome, tEnv, tDice⟩ := Stmt.exec_of_settled hp d
  obtain ⟨sOutcome', sEnv', sDice'⟩ := Stmt.exec_of_settled hsAfter (t.exec env d).dice
  obtain ⟨tOutcome', tEnv', tDice'⟩ := Stmt.exec_of_settled htAfter (s.exec env d).dice
  refine ⟨sOutcome.trans sOutcome'.symm, tOutcome'.trans tOutcome.symm, ?_, ?_⟩
  · rw [Stmt.execAfter, Stmt.execAfter, sEnv', tEnv', sEnv, tEnv]
    exact env.applyOk_comm apart
  · rw [Stmt.execAfter, Stmt.execAfter, sDice', tDice', sDice, tDice]

/-- A call of a function of `n`, and a definition that takes the place of the variable `n`. -/
theorem parameter_is_no_target :
    let scale : Function := ⟨["n"], .op .mul (some (.var "n")) (some (.var "k"))⟩
    let env : Env := { Env.initial with
      vars := (Bindings.empty.bind "k" (.int 3)).bind "n" (.int 5)
      funs := Bindings.empty.bind "scale" scale }
    let s : Stmt := .assign "total" (.call "scale" [.op .plus (some (.var "k")) (some (.var "k"))])
    let t : Stmt := .define "n" ⟨[], .var "total"⟩
    ∀ d, (s.exec env d).outcome = .ok () ∧
      (s.execAfter t env d).env.vars.get? "total" = some (.int 18) ∧
      (t.execAfter s env d).env.Alike (s.execAfter t env d).env := by
  intro scale env s t d
  have within : (Expr.call "scale" [.op .plus (some (.var "k")) (some (.var "k"))]).Within
      (· = "k") (· = "scale") [] := ⟨by simp, by simp⟩
  have body : scale.body.Within (· = "k") (· = "scale") scale.params :=
    ⟨by simp [scale], by simp [scale]⟩
  have named : ∀ g f, g = "scale" → env.funs.get? g = some f → f = scale := by
    rintro g f rfl hf
    exact (Option.some.inj hf).symm
  have hbodies : ∀ g f, g = "scale" → env.funs.get? g = some f →
      f.body.Within (· = "k") (· = "scale") f.params := fun g f hg hf => named g f hg hf ▸ body
  have hst : s.Ignores env.funs "n" := by
    refine ⟨fun h => ?_, fun h => ?_, fun h => ?_⟩
    · exact absurd (h.of_within within hbodies List.not_mem_nil) (by decide)
    · exact absurd (h.of_within within hbodies) (by decide)
    · rcases rolls_iff.mp h with hdice | ⟨g, f, hcalls, hf, hdice⟩
      · simp [Expr.HasDice] at hdice
      · rw [named g f (hcalls.of_within within hbodies) hf] at hdice
        simp [Expr.HasDice, scale] at hdice
  have commute := independent_statements_commute env s t rfl rfl (by decide) hst trivial d
  exact ⟨rfl, rfl, commute.2.2.1⟩

end DiceNotation
