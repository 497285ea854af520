import Mathlib.Algebra.GroupWithZero.Nat
import DiceNotation.Proofs.Trees

/-!
Splitting a pool.

A pool of dice can be rolled in several parts, and these added up in any way: sums of lists join
them, and they are evaluated from left to right, so the faces fall one after the other as they would
in a single roll (`split_pool`). By induction on the tree of sums, where a sum puts together two rolls
with the dice of the first handed on to the second (`Dice.faces_add`).
-/

namespace DiceNotation

open Unlimited

/-- A roll of dice with the same number of sides, both numbers written out. -/
def Expr.roll (count sides : Nat) : Expr := (Formula.roll count sides).toExpr

variable {env : Env} {call : String → List Value → Eval Value}

/-- A tree of sums over rolls comes to the faces of all their dice. -/
theorem OpTree.evalWith_rolls (s : Nat) (t : OpTree Nat) (hplus : t.onlyPlus = true)
    (h : (t.leaves.sum : Int) ≤ env.maxRollCount) (d : Dice) :
    ∃ rolls, (t.map (Expr.roll · s)).toExpr.evalWith env call d =
      ⟨.ok (.list ((d.faces t.leaves.sum s).1.map .int)), (d.faces t.leaves.sum s).2, rolls⟩ := by
  induction t generalizing d with
  | leaf n =>
    rw [leaves, List.sum_singleton] at h ⊢
    exact ⟨_, Formula.evalWith_roll h s d⟩
  | node o l r ihl ihr =>
    simp only [onlyPlus, Bool.and_eq_true, decide_eq_true_eq] at hplus
    obtain ⟨rfl, hl, hr⟩ := hplus
    rw [leaves, List.sum_append, Int.natCast_add] at h
    obtain ⟨before, hbefore⟩ := ihl hl (by omega) d
    obtain ⟨later, hlater⟩ := ihr hr (by omega) (d.faces l.leaves.sum s).2
    refine ⟨before ++ later, ?_⟩
    rw [leaves, List.sum_append, Dice.faces_add, List.map_append]
    exact Expr.evalWith_op_of_ok (o := .plus) (by decide) hbefore hlater
  | pos t ih =>
    obtain ⟨rolls, hrolls⟩ := ih hplus h d
    exact ⟨rolls, Expr.evalWith_op_right_of_ok (o := .plus) (by decide) hrolls⟩
  | neg t => cases hplus

/-- Splitting a pool changes nothing. If the dice of a pool are no more than the limit, then every
    tree of sums whose leaves roll parts of the pool from left to right comes to the same list as the
    roll of the whole pool, and leaves the dice in the same state. -/
theorem split_pool (env : Env) (s : Nat) (t : OpTree Nat) (hplus : t.onlyPlus = true)
    (h : (t.leaves.sum : Int) ≤ env.maxRollCount) (d : Dice) :
    let parts := (t.map (Expr.roll · s)).toExpr.eval env d
    let whole := (Expr.roll t.leaves.sum s).eval env d
    (∃ vs, whole.outcome = .ok (.list vs)) ∧ parts.outcome = whole.outcome ∧
      parts.dice = whole.dice := by
  intro parts whole
  obtain ⟨rolls, hparts⟩ : ∃ rolls, (t.map (Expr.roll · s)).toExpr.evalWith env env.call d =
    ⟨_, _, rolls⟩ := t.evalWith_rolls s hplus h d
  have hwhole : (Expr.roll t.leaves.sum s).evalWith env env.call d = _ := Formula.evalWith_roll h s d
  rw [← Expr.eval_eq] at hparts hwhole
  rw [show parts = _ from hparts, show whole = _ from hwhole]
  exact ⟨⟨_, rfl⟩, rfl, rfl⟩

/-- Three dice, one of them apart, and none beside the other two. -/
theorem three_dice_split :
    let t : OpTree Nat := .node .plus (.leaf 1) (.node .plus (.leaf 0) (.leaf 2))
    t.onlyPlus = true ∧ (t.leaves.sum : Int) ≤ Env.initial.maxRollCount ∧
      ∀ d, ((t.map (Expr.roll · 6)).toExpr.eval Env.initial d).outcome =
          ((Expr.roll 3 6).eval Env.initial d).outcome ∧
        ((t.map (Expr.roll · 6)).toExpr.eval Env.initial d).dice =
          ((Expr.roll 3 6).eval Env.initial d).dice := by
  intro t
  have h : (t.leaves.sum : Int) ≤ Env.initial.maxRollCount := show (3 : Int) ≤ 100000 by decide
  exact ⟨rfl, h, fun d => (split_pool Env.initial 6 t rfl h d).2⟩

end DiceNotation
