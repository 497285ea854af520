import DiceNotation.Dice.Roll

/-!
Faces drawn one after another.

A roll draws its faces one by one, each from where the last one has left the dice (`draw`). The first
faces of several draws are those of the first draws alone (`draw_append`), there is one face for each
die (`length_draw`), and it is one of that die (`mem_draw`). So a roll can be cut in two (`faces_add`).

A face is the first candidate that is not refused, however long that takes (`Accepts`). The bound on the
number of refusals makes no difference to a roll in which no face takes longer (`faces_of_accepts`).
-/

namespace DiceNotation.Dice

/-- One face after another, of dice with these numbers of sides. -/
def draw : List Nat → Dice → List Int × Dice
  | [], d => ([], d)
  | s :: sides, d => ((d.face s).1 :: (draw sides (d.face s).2).1, (draw sides (d.face s).2).2)

theorem draw_append (sides others : List Nat) (d : Dice) :
    d.draw (sides ++ others) =
      ((d.draw sides).1 ++ ((d.draw sides).2.draw others).1, ((d.draw sides).2.draw others).2) := by
  induction sides generalizing d with
  | nil => simp only [List.nil_append, draw]
  | cons s sides ih => simp only [List.cons_append, draw, ih]

theorem length_draw (sides : List Nat) (d : Dice) : (d.draw sides).1.length = sides.length := by
  induction sides generalizing d with
  | nil => simp only [draw, List.length_nil]
  | cons s sides ih => simp only [draw, List.length_cons, ih]

/-! ### The range of faces -/

variable {s : Nat}

/-- What is brought below a positive number is below it, however many candidates are refused. -/
theorem below_lt (hs : 0 < s) (tries : Nat) (d : Dice) : (d.below s tries).1 < s := by
  induction tries generalizing d with
  | zero =>
    rw [below]
    exact Nat.mod_lt _ hs
  | succ tries ih =>
    rw [below]
    dsimp only
    split
    · assumption
    · exact ih _

theorem face_mem (hs : 0 < s) (d : Dice) : 1 ≤ (d.face s).1 ∧ (d.face s).1 ≤ s := by
  have hlt := below_lt hs maxTries d
  rw [face]
  generalize d.below s maxTries = r at hlt
  dsimp only
  omega

theorem mem_draw (hs : 0 < s) (n : Nat) (d : Dice) :
    ∀ x ∈ (d.draw (List.replicate n s)).1, 1 ≤ x ∧ x ≤ s := by
  induction n generalizing d with
  | zero => simp only [List.replicate_zero, draw, List.not_mem_nil, false_implies, implies_true]
  | succ n ih =>
    rw [List.replicate_succ, draw]
    exact List.forall_mem_cons.mpr ⟨face_mem hs d, ih _⟩

/-! ### Rolls -/

theorem facesOnto_eq (n : Nat) (drawn : List Int) (d : Dice) :
    facesOnto s drawn n d =
      (drawn.reverse ++ (d.draw (List.replicate n s)).1, (d.draw (List.replicate n s)).2) := by
  induction n generalizing drawn d with
  | zero => simp only [facesOnto, List.replicate_zero, draw, List.append_nil]
  | succ n ih =>
    simp only [facesOnto, ih, List.replicate_succ, draw, List.reverse_cons, List.append_assoc,
      List.singleton_append]

/-- The faces of a roll are drawn one after another. -/
theorem faces_eq_draw (hs : 0 < s) (n : Nat) (d : Dice) :
    d.faces n s = d.draw (List.replicate n s) := by
  rw [faces, if_neg (by omega), facesOnto_eq, List.reverse_nil, List.nil_append]

theorem length_faces (n s : Nat) (d : Dice) : (d.faces n s).1.length = n := by
  by_cases hs : s = 0
  · rw [faces, if_pos hs, List.length_replicate]
  · rw [faces_eq_draw (Nat.pos_of_ne_zero hs), length_draw, List.length_replicate]

/-- The faces of a roll are those of two rolls one after the other that have its dice between them. -/
theorem faces_add (m n s : Nat) (d : Dice) :
    d.faces (m + n) s =
      ((d.faces m s).1 ++ ((d.faces m s).2.faces n s).1, ((d.faces m s).2.faces n s).2) := by
  by_cases hs : s = 0
  · simp only [faces, if_pos hs, List.replicate_append_replicate]
  · have hs := Nat.pos_of_ne_zero hs
    rw [faces_eq_draw hs, faces_eq_draw hs, faces_eq_draw hs, ← List.replicate_append_replicate,
      draw_append]

theorem mem_faces (hs : 0 < s) (n : Nat) (d : Dice) :
    ∀ x ∈ (d.faces n s).1, 1 ≤ x ∧ x ≤ s := by
  rw [faces_eq_draw hs]
  exact mem_draw hs n d

/-- No face is more than the number of sides, also where there are none. -/
theorem faces_between (n s : Nat) (d : Dice) : ∀ x ∈ (d.faces n s).1, 0 ≤ x ∧ x ≤ s := by
  intro x hx
  by_cases hs : s = 0
  · rw [faces, if_pos hs] at hx
    rw [List.eq_of_mem_replicate hx]
    omega
  · have range := mem_faces (Nat.pos_of_ne_zero hs) n d x hx
    omega

/-! ### The first candidate that is not refused -/

/-- After so many candidates that are not below `s` there is one that is. -/
inductive Accepts (s : Nat) : (refused : Nat) → Dice → Nat → Dice → Prop
  | here {d d' : Dice} {r : Nat} : d.bits (Number.bitLength s) = (r, d') → r < s →
    Accepts s 0 d r d'
  | later {d d₁ d' : Dice} {r r' refused : Nat} : d.bits (Number.bitLength s) = (r, d₁) → s ≤ r →
    Accepts s refused d₁ r' d' → Accepts s (refused + 1) d r' d'

/-- A number that is found within the bound is the one that is given. -/
theorem below_of_accepts {refused r : Nat} {d d' : Dice} (h : Accepts s refused d r d') {tries : Nat}
    (htries : refused ≤ tries) : d.below s tries = (r, d') := by
  induction h generalizing tries with
  | @here d d' r hbits hr =>
    cases tries with
    | zero =>
      rw [below, hbits]
      exact congrArg (·, d') (Nat.mod_eq_of_lt hr)
    | succ tries =>
      rw [below, hbits]
      exact if_pos hr
  | later hbits hr _ ih =>
    obtain ⟨tries, rfl⟩ := Nat.exists_eq_add_one_of_ne_zero (Nat.ne_zero_of_lt htries)
    rw [below, hbits]
    exact (if_neg (Nat.not_lt.mpr hr)).trans (ih (Nat.le_of_succ_le_succ htries))

/-- Faces one after another, each from a number below `s` that is found before too many candidates are
    refused. -/
inductive AcceptsAll (s : Nat) : (n : Nat) → Dice → List Int → Dice → Prop
  | nil (d : Dice) : AcceptsAll s 0 d [] d
  | cons {d d₁ d' : Dice} {n refused r : Nat} {faces : List Int} : Accepts s refused d r d₁ →
    refused ≤ maxTries → AcceptsAll s n d₁ faces d' → AcceptsAll s (n + 1) d ((r + 1) :: faces) d'

/-- A roll shows the faces that come of the first candidates that are not refused. -/
theorem faces_of_accepts {n : Nat} {d d' : Dice} {faces : List Int} (hs : 0 < s)
    (h : AcceptsAll s n d faces d') : d.faces n s = (faces, d') := by
  rw [faces_eq_draw hs]
  induction h with
  | nil d => rfl
  | @cons d d₁ d' n refused r faces haccepts hrefused _ ih =>
    have first : d.face s = ((r : Int) + 1, d₁) := by
      rw [face, below_of_accepts haccepts hrefused]
    rw [List.replicate_succ, draw, first, ih]

end DiceNotation.Dice
