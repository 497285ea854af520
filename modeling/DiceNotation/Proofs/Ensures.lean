import DiceNotation.Eval

/-!
What an outcome ensures: `Ensures E Q` says that a result satisfies `Q` and a failure satisfies `E`.

`E` stays the same throughout a computation and `Q` changes from step to step, so there is one rule
for each way of putting steps together: one after another, over a list. An evaluation ensures what
its outcome does, whatever state the dice are in.
-/

namespace DiceNotation

variable {α β γ : Type} {E F : Failure → Prop} {Q : α → Prop} {R : β → Prop}

namespace Outcome

/-- A result satisfies `Q`, a failure satisfies `E`. -/
def Ensures (E : Failure → Prop) (Q : α → Prop) : Outcome α → Prop
  | .ok a => Q a
  | .error f => E f

/-- A result satisfies `Q`, and there may be any failure instead. -/
abbrev Gives (Q : α → Prop) (o : Outcome α) : Prop := Ensures (fun _ => True) Q o

theorem ensures_ok {a : α} (h : Q a) : Ensures E Q (.ok a) := h

theorem Ensures.imp {Q' : α → Prop} {o : Outcome α} (h : Ensures E Q o)
    (hE : ∀ f, E f → F f) (hQ : ∀ a, Q a → Q' a) : Ensures F Q' o := by
  cases o with
  | ok a => exact hQ a h
  | error f => exact hE f h

theorem Ensures.bind {x : Outcome α} {f : α → Outcome β} (hx : Ensures E Q x)
    (hf : ∀ a, Q a → Ensures E R (f a)) : Ensures E R (x >>= f) := by
  cases x with
  | ok a => exact hf a hx
  | error f => exact hx

theorem Ensures.map {o : Outcome α} {f : α → β} (h : Ensures E Q o) (hf : ∀ a, Q a → R (f a)) :
    Ensures E R (o.map f) := by
  cases o with
  | ok a => exact hf a h
  | error f => exact h

theorem ensures_mapM {f : γ → Outcome α} : ∀ {xs : List γ}, (∀ x ∈ xs, Ensures E Q (f x)) →
    Ensures E (fun as => ∀ a ∈ as, Q a) (xs.mapM f)
  | [], _ => by
    rw [List.mapM_nil]
    exact ensures_ok (by simp)
  | x :: xs, h => by
    rw [List.mapM_cons]
    refine (h x (List.mem_cons_self ..)).bind fun a ha => ?_
    refine (ensures_mapM fun y hy => h y (List.mem_cons_of_mem _ hy)).bind fun as has => ?_
    exact ensures_ok (List.forall_mem_cons.mpr ⟨ha, has⟩)

/-- Beyond a limit there is the error, or the defect of a host that cannot write it. -/
theorem ensures_refuseBeyond [Host] {limit : Int} {e : Error}
    (he : Host.writes limit = true → E (.error e)) (hd : E (.defect .wrongValue)) :
    Ensures E Q (refuseBeyond limit e) := by
  unfold refuseBeyond
  by_cases hw : Host.writes limit = true
  · rw [if_pos hw]
    exact he hw
  · rw [if_neg hw]
    exact hd

/-- What holds of every result of the last step holds of the result, whatever comes before. -/
theorem gives_last (x : Outcome α) {f : α → Outcome β} (h : ∀ a, Gives R (f a)) :
    Gives R (x >>= f) := by
  cases x with
  | ok a => exact h a
  | error f => trivial

end Outcome

namespace Eval

/-- Whatever state the dice are in, a result satisfies `Q` and a failure satisfies `E`. -/
def Ensures (E : Failure → Prop) (Q : α → Prop) (x : Eval α) : Prop :=
  ∀ d, Outcome.Ensures E Q (x d).outcome

/-- Whatever state the dice are in, a result satisfies `Q`. -/
abbrev Gives (Q : α → Prop) (x : Eval α) : Prop := Ensures (fun _ => True) Q x

theorem ensures_lift {o : Outcome α} (h : Outcome.Ensures E Q o) : Ensures E Q (lift o) :=
  fun _ => h

theorem ensures_pure {a : α} (h : Q a) : Ensures E Q (pure a : Eval α) := fun _ => h

theorem ensures_fail {e : Error} (h : E (.error e)) : Ensures E Q (Eval.fail e : Eval α) :=
  fun _ => h

theorem Ensures.bind {x : Eval α} {f : α → Eval β} (hx : Ensures E Q x)
    (hf : ∀ a, Q a → Ensures E R (f a)) : Ensures E R (x >>= f) := by
  intro d
  have first := hx d
  rcases h : x d with ⟨e | a, d', rolls⟩ <;> rw [h] at first
  · rw [bind_error h]
    exact first
  · rw [bind_ok h]
    exact hf a first d'

end Eval

end DiceNotation
