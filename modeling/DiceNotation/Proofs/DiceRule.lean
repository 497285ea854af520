import DiceNotation.Proofs.Faces
import DiceNotation.Proofs.Safety

/-!
The rule of the dice operator.

Count and sides are evaluated one after the other, and each must be an integer as soon as it is known
(`DiceOperand`). Only then are they looked at as numbers, the count first: none may be negative, and
the count may not be beyond the limit. What is left is a roll, of one face for each die (`RollRule`).
`DiceRule` puts these together: it lists all that can happen, with the dice that are left and the
rolls that are reported. The cases exclude one another, and among well-formed values there are no
others (`eval_dice_iff`).
-/

namespace DiceNotation

open Unlimited

/-! ### The rule -/

/-- What an operand of the dice operator comes to. An absent one is 1, and one that is there must be
    evaluated to an integer. -/
inductive DiceOperand (env : Env) : Option Expr → Dice → Trace Int → Prop
  | absent {d : Dice} : DiceOperand env none d ⟨.ok 1, d, []⟩
  | integer {e : Expr} {d d' : Dice} {rolls : List Roll} {n : Int} :
    e.eval env d = ⟨.ok (.int n), d', rolls⟩ → DiceOperand env (some e) d ⟨.ok n, d', rolls⟩
  | failed {e : Expr} {d d' : Dice} {rolls : List Roll} {f : Failure} :
    e.eval env d = ⟨.error f, d', rolls⟩ → DiceOperand env (some e) d ⟨.error f, d', rolls⟩
  | mismatched {e : Expr} {d d' : Dice} {rolls : List Roll} {v : Value} {found : ValueType} :
    e.eval env d = ⟨.ok v, d', rolls⟩ → v.isInt = false → v.type? = .ok found →
    DiceOperand env (some e) d ⟨fail (.typeMismatch ValueType.int found), d', rolls⟩

/-- What comes of so many dice with so many sides: the first refusal that applies, which draws
    nothing, or else a face for each die. -/
inductive RollRule (env : Env) (count sides : Int) (d : Dice) : Trace Value → Prop
  | negativeCount : count < 0 →
    RollRule env count sides d ⟨fail (.negativeArgument (.int count)), d, []⟩
  | negativeSides : 0 ≤ count → sides < 0 →
    RollRule env count sides d ⟨fail (.negativeArgument (.int sides)), d, []⟩
  | tooMany : 0 ≤ count → 0 ≤ sides → env.maxRollCount < count →
    RollRule env count sides d ⟨fail (.invalidOperation InfixOp.dice
      ("cannot roll more than " ++ toString env.maxRollCount ++ " dice")), d, []⟩
  | blank {faces : List Int} : 0 ≤ count → count ≤ env.maxRollCount → sides = 0 →
    faces.length = count → (∀ x ∈ faces, x = 0) →
    RollRule env count sides d ⟨.ok (.list (faces.map .int)), d, [⟨count, sides, faces⟩]⟩
  | rolled {faces : List Int} {d' : Dice} : 0 ≤ count → count ≤ env.maxRollCount → 0 < sides →
    d.draw (List.replicate count.toNat sides.toNat) = (faces, d') →
    faces.length = count → (∀ x ∈ faces, 1 ≤ x ∧ x ≤ sides) →
    RollRule env count sides d ⟨.ok (.list (faces.map .int)), d', [⟨count, sides, faces⟩]⟩

/-- What the dice operator comes to: the failure of the count, or else of the sides, or else what
    comes of the roll. -/
inductive DiceRule (env : Env) (l r : Option Expr) (d : Dice) : Trace Value → Prop
  | left {d₁ : Dice} {before : List Roll} {f : Failure} :
    DiceOperand env l d ⟨.error f, d₁, before⟩ →
    DiceRule env l r d ⟨.error f, d₁, before⟩
  | right {d₁ d₂ : Dice} {before later : List Roll} {count : Int} {f : Failure} :
    DiceOperand env l d ⟨.ok count, d₁, before⟩ → DiceOperand env r d₁ ⟨.error f, d₂, later⟩ →
    DiceRule env l r d ⟨.error f, d₂, before ++ later⟩
  | roll {d₁ d₂ d₃ : Dice} {before later last : List Roll} {count sides : Int}
      {o : Outcome Value} :
    DiceOperand env l d ⟨.ok count, d₁, before⟩ → DiceOperand env r d₁ ⟨.ok sides, d₂, later⟩ →
    RollRule env count sides d₂ ⟨o, d₃, last⟩ →
    DiceRule env l r d ⟨o, d₃, before ++ (later ++ last)⟩

variable {env : Env} {l r : Option Expr}

/-! ### Rolls -/

theorem Env.rollOperands_iff {count sides : Int} {d : Dice} {t : Trace Value} :
    env.rollOperands count sides d = t ↔ RollRule env count sides d t := by
  constructor
  · rintro rfl
    refine env.rollOperands_cases_unlimited count sides d .negativeCount .negativeSides .tooMany ?_
    intro hc hs hm faces d' hfaces
    have length : faces.length = count.toNat := by
      rw [← Dice.length_faces count.toNat sides.toNat d, hfaces]
    have length : faces.length = count := by omega
    obtain hpos | rfl := Int.lt_or_eq_of_le hs
    · have hpos' : 0 < sides.toNat := Int.lt_toNat.mpr hpos
      refine .rolled hc hm hpos (Dice.faces_eq_draw hpos' _ d ▸ hfaces) length fun x hx => ?_
      have range := Dice.mem_faces hpos' count.toNat d x (by rwa [hfaces])
      rwa [Int.toNat_of_nonneg hs] at range
    · -- a die without sides draws nothing, so the dice are still the same
      cases hfaces
      exact .blank hc hm rfl length fun x hx => List.eq_of_mem_replicate hx
  · intro h
    cases h with
    | negativeCount hc => rw [rollOperands, if_pos hc]; rfl
    | negativeSides hc hs => rw [rollOperands, if_neg (Int.not_lt.mpr hc), if_pos hs]; rfl
    | tooMany hc hs hm =>
      rw [rollOperands, if_neg (Int.not_lt.mpr hc), if_neg (Int.not_lt.mpr hs)]
      exact if_pos hm
    | @blank faces hc hm hs length zero =>
      subst hs
      have hfaces : faces = List.replicate count.toNat 0 :=
        List.eq_replicate_iff.mpr ⟨by omega, zero⟩
      rw [rollOperands_of_le env hc (Int.le_refl 0) hm, hfaces]
      rfl
    | rolled hc hm hs hdraw =>
      rw [rollOperands_of_le env hc (Int.le_of_lt hs) hm,
        Dice.faces_eq_draw (Int.lt_toNat.mpr hs), hdraw]

/-! ### Operands -/

/-- An operand of the dice operator, evaluated. -/
def Env.evalOperand (env : Env) (o : Option Expr) : Eval Int := do
  Eval.lift (diceOperand (← evalOptionWith env env.call o))

theorem Env.evalOperand_of_ok {e : Expr} {d d' : Dice} {v : Value} {rolls : List Roll}
    (h : e.eval env d = ⟨.ok v, d', rolls⟩) :
    env.evalOperand (some e) d = ⟨diceOperand (some v), d', rolls⟩ := by
  rw [Expr.eval_eq] at h
  rw [evalOperand, Eval.bind_ok (evalOptionWith_of_ok h)]
  exact congrArg (Trace.mk _ _) (List.append_nil rolls)

theorem Env.evalOperand_of_error {e : Expr} {d d' : Dice} {f : Failure} {rolls : List Roll}
    (h : e.eval env d = ⟨.error f, d', rolls⟩) :
    env.evalOperand (some e) d = ⟨.error f, d', rolls⟩ := by
  rw [Expr.eval_eq] at h
  rw [evalOperand, Eval.bind_error (evalOptionWith_of_error h)]

theorem diceOperand_of_not_int {v : Value} {found : ValueType} (hv : v.isInt = false)
    (hfound : v.type? = .ok found) :
    diceOperand (some v) = fail (.typeMismatch ValueType.int found) := by
  have rejected : diceOperand (some v) =
      (do fail (.typeMismatch ValueType.int (← v.type?))) := by
    cases v with
    | number n =>
      cases n with
      | int n => cases hv
      | real x => rfl
    | _ => rfl
  rw [rejected, hfound]
  rfl

theorem DiceOperand.evalOperand_eq {o : Option Expr} {d : Dice} {t : Trace Int}
    (h : DiceOperand env o d t) : env.evalOperand o d = t := by
  cases h with
  | absent => rfl
  | integer h => exact Env.evalOperand_of_ok h
  | failed h => exact Env.evalOperand_of_error h
  | mismatched h hint hfound =>
    rw [Env.evalOperand_of_ok h, diceOperand_of_not_int hint hfound]

theorem Env.WellFormed.diceOperand (h : env.WellFormed) {o : Option Expr} {d : Dice} {t : Trace Int}
    (ht : env.evalOperand o d = t) : DiceOperand env o d t := by
  subst ht
  cases o with
  | none => exact .absent
  | some e =>
    have value := e.eval_in Fragment.whole_closed (Env.in_whole_iff.mpr h) e.in_whole d
    rcases he : e.eval env d with ⟨f | v, d', rolls⟩
    · rw [Env.evalOperand_of_error he]
      exact .failed he
    · rw [he] at value
      obtain ⟨found, hfound⟩ := Value.exists_type (Value.In.wellFormed value)
      rw [Env.evalOperand_of_ok he]
      by_cases hint : v.isInt = true
      · cases v with
        | number n =>
          cases n with
          | int n => exact .integer he
          | real x => cases hint
        | _ => cases hint
      · rw [Bool.not_eq_true] at hint
        rw [diceOperand_of_not_int hint hfound]
        exact .mismatched he hint hfound

/-! ### The dice operator -/

theorem Expr.eval_dice (env : Env) (l r : Option Expr) : (Expr.op .dice l r).eval env = (do
    let count ← env.evalOperand l
    let sides ← env.evalOperand r
    env.rollOperands count sides) := by
  rw [eval_eq, evalWith]
  simp only [Env.evalOperand, bind_assoc]

theorem DiceRule.eval_eq {d : Dice} {t : Trace Value} (h : DiceRule env l r d t) :
    (Expr.op .dice l r).eval env d = t := by
  rw [Expr.eval_dice]
  cases h with
  | left hl => exact Eval.bind_error hl.evalOperand_eq _
  | right hl hr => rw [Eval.bind_ok hl.evalOperand_eq, Eval.bind_error hr.evalOperand_eq]
  | roll hl hr hroll =>
    rw [Eval.bind_ok hl.evalOperand_eq, Eval.bind_ok hr.evalOperand_eq,
      Env.rollOperands_iff.mpr hroll]

theorem Env.WellFormed.diceRule (h : env.WellFormed) (l r : Option Expr) (d : Dice) :
    DiceRule env l r d ((Expr.op .dice l r).eval env d) := by
  rw [Expr.eval_dice]
  rcases hl : env.evalOperand l d with ⟨f | count, d₁, before⟩
  · rw [Eval.bind_error hl]
    exact .left (h.diceOperand hl)
  rw [Eval.bind_ok hl]
  rcases hr : env.evalOperand r d₁ with ⟨f | sides, d₂, later⟩
  · rw [Eval.bind_error hr]
    exact .right (h.diceOperand hl) (h.diceOperand hr)
  · rw [Eval.bind_ok hr]
    exact .roll (h.diceOperand hl) (h.diceOperand hr) (Env.rollOperands_iff.mp rfl)

/-- In an environment of well-formed values a use of the dice operator comes to what its rule says
    and to nothing else: the failure of an operand or its mismatch, the count before the sides; then
    a refusal, which leaves the dice as the operands have left them; or else as many integers as
    there are dice, all of them 0 if there are no sides and between 1 and the sides if there are. -/
theorem eval_dice_iff (h : env.WellFormed) (l r : Option Expr) (d : Dice) (t : Trace Value) :
    (Expr.op .dice l r).eval env d = t ↔ DiceRule env l r d t := by
  refine ⟨?_, DiceRule.eval_eq⟩
  rintro rfl
  exact h.diceRule l r d

/-- A pool in the place of the sides is rolled before it is refused, and it is refused before anyone
    looks at the count, which is negative. -/
theorem pool_of_sides_mismatched :
    let int (n : Int) : Option Expr := some (.lit (.int n) rfl)
    let pool : Expr := .op .dice (int 2) (int 6)
    Env.initial.WellFormed ∧ ∀ d : Dice,
      (Expr.op .dice (int (-1)) (some pool)).eval .initial d =
        ⟨fail (.typeMismatch ValueType.int ValueType.list), (d.faces 2 6).2,
          [⟨2, 6, (d.faces 2 6).1⟩]⟩ := by
  intro int pool
  have h : Env.initial.WellFormed := fun name v hv => nomatch hv
  refine ⟨h, fun d => ?_⟩
  have hroll : Env.initial.rollOperands 2 6 d = _ :=
    Env.initial.rollOperands_of_le (by decide) (by decide) (by decide) d
  have hpool : pool.eval .initial d = _ :=
    DiceRule.eval_eq (.roll (.integer rfl) (.integer rfl) (Env.rollOperands_iff.mp hroll))
  have hcount : DiceOperand .initial (int (-1)) d ⟨.ok (-1), d, []⟩ := .integer rfl
  exact (eval_dice_iff h (int (-1)) (some pool) d _).mpr
    (.right hcount (.mismatched hpool rfl rfl))

end DiceNotation
