import DiceNotation.Exec
import DiceNotation.Proofs.Dependence
import DiceNotation.Proofs.Faces

/-!
The dice from roll to roll.

The dice change by the rolls alone that an evaluation reports, each from where the last one left them
(`Thrown`): so it is for outcomes and for a roll, and therefore for evaluations that are put together
from these (`eval_honest`). What a command puts on record is all that it does to the dice, and where
no face was drawn they are as they were (`Thrown.unchanged`). What holds of every single roll holds of
all the rolls of an evaluation (`eval_rollsAll`), so each is one that can be made (`Roll.Made`).
-/

namespace DiceNotation

/-! ### Rolls one after another -/

/-- The rolls lead from one state of the dice to another. -/
inductive Thrown : Dice → List Roll → Dice → Prop
  | nil (d : Dice) : Thrown d [] d
  | cons {d d' d'' : Dice} {r : Roll} {rolls : List Roll} : 0 ≤ r.count → 0 ≤ r.sides →
    d.faces r.count.toNat r.sides.toNat = (r.faces, d') → Thrown d' rolls d'' →
    Thrown d (r :: rolls) d''

theorem Thrown.append {d d' d'' : Dice} {rolls rolls' : List Roll} (h : Thrown d rolls d')
    (h' : Thrown d' rolls' d'') : Thrown d (rolls ++ rolls') d'' := by
  induction h with
  | nil d => exact h'
  | cons hcount hsides hfaces _ ih => exact .cons hcount hsides hfaces (ih h')

/-- The faces of a roll that were drawn from the dice. -/
def Roll.draws (r : Roll) : List Int := if r.sides = 0 then [] else r.faces

theorem Dice.length_facesOnto (s : Nat) : ∀ (n : Nat) (drawn : List Int) (d : Dice),
    (facesOnto s drawn n d).1.length = drawn.length + n
  | 0, drawn, d => List.length_reverse
  | n + 1, drawn, d => by
    rw [facesOnto, length_facesOnto s n]
    simp only [List.length_cons]
    omega

/-- The dice change only by faces that are drawn. -/
theorem Thrown.unchanged {d d' : Dice} {rolls : List Roll} (h : Thrown d rolls d')
    (hdraws : ∀ r ∈ rolls, r.draws = []) : d' = d := by
  induction h with
  | nil d => rfl
  | @cons d d₁ d' r rolls hcount hsides hfaces _ ih =>
    obtain ⟨hr, hdraws⟩ := List.forall_mem_cons.mp hdraws
    rw [ih hdraws]
    unfold Roll.draws at hr
    unfold Dice.faces at hfaces
    by_cases hs : r.sides = 0
    · rw [if_pos (by omega)] at hfaces
      exact (congrArg Prod.snd hfaces).symm
    · rw [if_neg hs] at hr
      rw [if_neg (by omega)] at hfaces
      have hlen := Dice.length_facesOnto r.sides.toNat r.count.toNat [] d
      rw [hfaces, hr] at hlen
      rw [show r.count.toNat = 0 by simpa using hlen.symm] at hfaces
      exact (congrArg Prod.snd hfaces).symm

/-- The rolls that are reported are all that is done to the dice. -/
def Eval.Honest {α : Type} (x : Eval α) : Prop := ∀ d, Thrown d (x d).rolls (x d).dice

theorem Eval.Honest.bind {α β : Type} {x : Eval α} {f : α → Eval β} (hx : x.Honest)
    (hf : ∀ a, (f a).Honest) : (x >>= f).Honest := by
  intro d
  have first := hx d
  rcases h : x d with ⟨e | a, d', rolls⟩ <;> rw [h] at first
  · rw [bind_error h]
    exact first
  · rw [bind_ok h]
    exact first.append (hf a d')

theorem Env.rollOperands_honest [Host] (env : Env) (count sides : Int) :
    (env.rollOperands count sides).Honest := by
  intro d
  refine env.rollOperands_cases count sides d ?_ ?_ ?_ ?_ ?_
  · exact fun _ => .nil d
  · exact fun _ _ => .nil d
  · exact fun _ _ _ => .nil d
  · exact fun _ _ _ _ _ => .nil d
  · exact fun hc hs _ _ faces d' h => .cons hc hs h (.nil d')

theorem Expr.eval_honest [Host] (env : Env) (e : Expr) : (e.eval env).Honest := by
  have composed : Composed fun _ x _ => x.Honest := ⟨fun _ => .nil, fun hx hf => hx.bind hf⟩
  exact (Agree.refl e env).related composed fun _ n k => env.rollOperands_honest n k

theorem Stmt.mutation_honest [Host] (env : Env) (s : Stmt) : (s.mutation env).Honest := by
  cases s with
  | assign name e => exact (e.eval_honest env).bind fun v => .nil
  | _ => exact .nil

/-! ### What all rolls have in common -/

/-- Every roll of the evaluation satisfies `P`. -/
def Eval.RollsAll {α : Type} (P : Roll → Prop) (x : Eval α) : Prop := ∀ d, ∀ r ∈ (x d).rolls, P r

theorem Eval.RollsAll.bind {α β : Type} {P : Roll → Prop} {x : Eval α} {f : α → Eval β} (hx : x.RollsAll P)
    (hf : ∀ a, (f a).RollsAll P) : (x >>= f).RollsAll P := by
  intro d r hr
  rcases h : x d with ⟨e | a, d', rolls⟩
  · rw [bind_error h] at hr
    exact hx d r (by rwa [h])
  · rw [bind_ok h] at hr
    rcases List.mem_append.mp hr with hr | hr
    · exact hx d r (by rwa [h])
    · exact hf a d' r hr

theorem Expr.eval_rollsAll [Host] {env : Env} {P : Roll → Prop}
    (h : ∀ count sides, (env.rollOperands count sides).RollsAll P) (e : Expr) :
    (e.eval env).RollsAll P := by
  have composed : Composed fun _ x _ => x.RollsAll P :=
    ⟨fun _ _ _ hr => absurd hr List.not_mem_nil, fun hx hf => hx.bind hf⟩
  exact (Agree.refl e env).related composed fun _ => h

/-- A roll that can have been made: of no negative numbers, within the limit, by a host that is able to make
    it, and with faces that the dice have. -/
structure Roll.Made [Host] (env : Env) (r : Roll) : Prop where
  count : 0 ≤ r.count
  limit : r.count ≤ env.maxRollCount
  sides : 0 ≤ r.sides
  able : rollDefect? r.count r.sides = none
  faces : ∀ x ∈ r.faces, 0 ≤ x ∧ x ≤ r.sides

theorem Env.rollOperands_made [Host] (env : Env) (count sides : Int) :
    (env.rollOperands count sides).RollsAll (Roll.Made env) := by
  intro d
  refine env.rollOperands_cases count sides d ?_ ?_ ?_ ?_ ?_
  · exact fun _ _ hr => absurd hr List.not_mem_nil
  · exact fun _ _ _ hr => absurd hr List.not_mem_nil
  · exact fun _ _ _ _ hr => absurd hr List.not_mem_nil
  · exact fun _ _ _ _ _ _ hr => absurd hr List.not_mem_nil
  · intro hc hs hm hx faces d' hfaces r hr
    rw [List.mem_singleton.mp hr]
    refine ⟨hc, hm, hs, hx, fun x hx => ?_⟩
    have range := Dice.faces_between count.toNat sides.toNat d x (by rwa [hfaces])
    rwa [Int.toNat_of_nonneg hs] at range

theorem Expr.eval_made [Host] (env : Env) (e : Expr) : (e.eval env).RollsAll (Roll.Made env) :=
  e.eval_rollsAll env.rollOperands_made

/-! ### Commands -/

/-- The expression that a command evaluates, if it evaluates one. -/
def Command.subject? : Command → Option Expr
  | .statement (.assign _ e) | .expression e => some e
  | _ => none

/-- The roll that is recorded, if it is one. -/
def Record.roll? : Record → Option Roll
  | .rolled r => some r
  | _ => none

theorem Record.filterMap_rolled (rolls : List Roll) :
    (rolls.map Record.rolled).filterMap Record.roll? = rolls := by
  rw [List.filterMap_map]
  exact List.filterMap_some

theorem Record.filterMap_changed (ms : List Mutation) :
    (ms.map Record.changed).filterMap Record.roll? = [] := by
  rw [List.filterMap_map]
  exact List.filterMap_eq_nil_iff.mpr fun _ _ => rfl

theorem Command.exec_statement_rolls [Host] (s : Stmt) (env : Env) (d : Dice) :
    ((statement s).exec env d).records.filterMap Record.roll? = (s.mutation env d).rolls := by
  rw [exec_statement_records, List.filterMap_cons_none (by rfl), List.filterMap_append,
    Record.filterMap_rolled, Record.filterMap_changed, List.append_nil]

theorem Command.exec_expression_rolls [Host] (e : Expr) (env : Env) (d : Dice) :
    ((expression e).exec env d).records.filterMap Record.roll? = (e.eval env d).rolls :=
  Record.filterMap_rolled (e.eval env d).rolls

/-- The rolls on record are all that a command does to the dice. -/
theorem Command.exec_thrown [Host] (c : Command) (env : Env) (d : Dice) :
    Thrown d ((c.exec env d).records.filterMap Record.roll?) (c.exec env d).dice := by
  cases c with
  | statement s =>
    rw [exec_statement_dice, exec_statement_rolls]
    exact s.mutation_honest env d
  | expression e =>
    rw [exec_expression_rolls]
    exact e.eval_honest env d
  | foreign kind => exact .nil d

end DiceNotation
