import DiceNotation.Proofs.Dependence

/-!
Where chance comes in.

Nothing but a roll looks at the dice. An outcome is settled before any dice are thrown, and settled
evaluations one after the other are settled (`Eval.Settled.bind`). So an expression that comes to no
roll, neither by its own operators nor by those of a body that it can reach, has the same outcome
whatever the dice would show, and leaves them as they are (`chance_only_in_dice`).
-/

namespace DiceNotation

/-! ### Settled evaluations -/

/-- The outcome is the same whatever the dice, and nothing is thrown. -/
def Eval.Settled {α : Type} (x : Eval α) : Prop := ∃ o, x = Eval.lift o

theorem Eval.Settled.bind {α β : Type} {x : Eval α} {f : α → Eval β} (hx : x.Settled)
    (hf : ∀ a, (f a).Settled) : (x >>= f).Settled := by
  obtain ⟨e | a, rfl⟩ := hx
  · exact ⟨.error e, rfl⟩
  · exact hf a

theorem Eval.Settled.composed : Composed fun _ x _ => x.Settled :=
  ⟨fun o => ⟨o, rfl⟩, fun hx hf => hx.bind hf⟩

/-- Where no roll is reached, everything is settled. -/
theorem Expr.eval_settled [Host] {env : Env} {e : Expr} (h : ¬Rolls env.funs e) : (e.eval env).Settled :=
  (Agree.refl e env).related Eval.Settled.composed fun hrolls => absurd hrolls h

/-! ### Reachable dice -/

/-- The dice operator is applied somewhere in the expression. -/
def Expr.HasDice (e : Expr) : Prop := ∃ l r, (Expr.op .dice l r).Part e

/-- A roll is reached if the dice operator is in the expression itself or in the body of a function
    that it calls, directly or through others. -/
theorem rolls_iff {funs : Bindings Function} {e : Expr} : Rolls funs e ↔
    e.HasDice ∨ ∃ g f, Calls funs g e ∧ funs.get? g = some f ∧ f.body.HasDice := by
  refine ⟨fun h => ?_, ?_⟩
  · induction h with
    | dice hpart => exact .inl ⟨_, _, hpart⟩
    | body hpart hf _ ih =>
      rcases ih with hdice | ⟨g, f, hcalls, hg, hdice⟩
      · exact .inr ⟨_, _, .named hpart, hf, hdice⟩
      · exact .inr ⟨g, f, .body hpart hf hcalls, hg, hdice⟩
  · rintro (⟨l, r, hpart⟩ | ⟨g, f, hcalls, hg, l, r, hdice⟩)
    · exact .dice hpart
    · induction hcalls with
      | named hpart => exact .body hpart hg (.dice hdice)
      | body hpart hf _ ih => exact .body hpart hf ih

/-- Dice are the only source of chance. If the dice operator is neither in an expression nor in the
    body of a user function that can be reached from it by calls, then the expression has the same
    outcome with any two dice, a value or a failure, and it makes no roll and leaves the dice as
    they are. -/
theorem chance_only_in_dice [Host] (env : Env) (e : Expr) (he : ¬e.HasDice)
    (hbodies : ∀ g f, Calls env.funs g e → env.funs.get? g = some f → ¬f.body.HasDice)
    (d d' : Dice) :
    (e.eval env d).outcome = (e.eval env d').outcome ∧
      (e.eval env d).dice = d ∧ (e.eval env d').dice = d' ∧
      (e.eval env d).rolls = [] ∧ (e.eval env d').rolls = [] := by
  have none : ¬Rolls env.funs e := fun h => by
    rcases rolls_iff.mp h with hdice | ⟨g, f, hcalls, hg, hdice⟩
    · exact he hdice
    · exact hbodies g f hcalls hg hdice
  obtain ⟨o, h⟩ := Expr.eval_settled none
  rw [h]
  exact ⟨rfl, rfl, rfl, rfl, rfl⟩

open Unlimited in
/-- Two functions that call each other until no call is left, beside one that would roll. -/
theorem endless_calls_without_chance :
    let ping : Function := ⟨["n"], .call "pong" [.op .plus (some (.var "n")) (some (.var "n"))]⟩
    let pong : Function := ⟨["n"], .list [.call "ping" [.var "n"]]⟩
    let die : Function := ⟨[], .op .dice none (some (.lit (.int 6) rfl))⟩
    let env : Env := { Env.initial with
      vars := Bindings.empty.bind "k" (.int (-3))
      funs := ((Bindings.empty.bind "ping" ping).bind "pong" pong).bind "die" die
      maxCallDepth := 5 }
    let e : Expr := .call "ping" [.var "k"]
    ¬e.HasDice ∧ ∀ d d', (e.eval env d).outcome =
        fail (.invalidOperation "pong" "call depth exceeded 5") ∧
      (e.eval env d).outcome = (e.eval env d').outcome ∧ (e.eval env d).dice = d := by
  intro ping pong die env e
  let reached (g : String) : Prop := g = "ping" ∨ g = "pong"
  have he : ¬e.HasDice := by simp [e, Expr.HasDice]
  have within : e.Within (fun _ => True) reached [] := ⟨by simp, by simp +contextual [e, reached]⟩
  have bodies : ∀ g f, reached g → env.funs.get? g = some f →
      f.body.Within (fun _ => True) reached f.params ∧ ¬f.body.HasDice := fun g f hg hf => by
    rcases hg with rfl | rfl <;> cases hf
    · exact ⟨⟨by simp, by simp +contextual [ping, reached]⟩, by simp [ping, Expr.HasDice]⟩
    · exact ⟨⟨by simp, by simp +contextual [pong, reached]⟩, by simp [pong, Expr.HasDice]⟩
  have hbodies : ∀ g f, Calls env.funs g e → env.funs.get? g = some f → ¬f.body.HasDice :=
    fun g f hcalls hf =>
      have hg : reached g := hcalls.of_within within fun g f hg hf => (bodies g f hg hf).1
      (bodies g f hg hf).2
  refine ⟨he, fun d d' => ⟨rfl, ?_⟩⟩
  have quiet := chance_only_in_dice env e he hbodies d d'
  exact ⟨quiet.1, quiet.2.1⟩

end DiceNotation
