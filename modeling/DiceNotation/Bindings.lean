/-!
Tables from names to things bound to them.

A name is bound at most once: binding it again replaces what it was bound to, so the last one wins
(`get?_bind`), and releasing it leaves the others as they are (`get?_release`).
-/

namespace DiceNotation

/-- A table of bindings. -/
structure Bindings (α : Type) where
  entries : List (String × α)

namespace Bindings

variable {α : Type}

/-- The table without bindings. -/
def empty : Bindings α := ⟨[]⟩

/-- What a name is bound to. -/
def get? (b : Bindings α) (name : String) : Option α := b.entries.lookup name

/-- Unbinds a name. -/
def release (b : Bindings α) (name : String) : Bindings α :=
  ⟨b.entries.filter fun entry => entry.1 != name⟩

/-- Binds a name, in place of what it was bound to. -/
def bind (b : Bindings α) (name : String) (x : α) : Bindings α :=
  ⟨(name, x) :: (b.release name).entries⟩

/-- Binds names one after another. -/
def bindAll (b : Bindings α) (pairs : List (String × α)) : Bindings α :=
  pairs.foldl (fun b pair => b.bind pair.1 pair.2) b

/-- The table of some pairs; of a repeated name the last one counts. -/
def ofList (pairs : List (String × α)) : Bindings α := empty.bindAll pairs

@[simp] theorem get?_empty (name : String) : (empty : Bindings α).get? name = none := rfl

theorem lookup_cons_ite (key other : String) (x : α) (rest : List (String × α)) :
    ((key, x) :: rest).lookup other = if other = key then some x else rest.lookup other := by
  by_cases h : other = key
  · simp [h]
  · simp [List.lookup_cons, beq_eq_false_iff_ne.2 h, h]

theorem lookup_filter_ne (name other : String) : ∀ entries : List (String × α),
    (entries.filter fun entry => entry.1 != name).lookup other =
      if other = name then none else entries.lookup other
  | [] => by simp
  | (key, x) :: rest => by
    have ih := lookup_filter_ne name other rest
    by_cases hk : key = name
    · rw [List.filter_cons_of_neg (by simp [hk]), ih, lookup_cons_ite]
      by_cases ho : other = name <;> simp [ho, hk]
    · rw [List.filter_cons_of_pos (by simp [hk]), lookup_cons_ite, ih, lookup_cons_ite]
      by_cases ho : other = key <;> simp_all

@[simp] theorem get?_release (b : Bindings α) (name other : String) :
    (b.release name).get? other = if other = name then none else b.get? other :=
  lookup_filter_ne name other b.entries

@[simp] theorem get?_bind (b : Bindings α) (name other : String) (x : α) :
    (b.bind name x).get? other = if other = name then some x else b.get? other := by
  have h := get?_release b name other
  simp only [bind, get?, lookup_cons_ite] at h ⊢
  by_cases ho : other = name <;> simp_all

theorem forall_empty {P : α → Prop} (name : String) (x : α)
    (hx : (empty : Bindings α).get? name = some x) : P x := by
  rw [get?_empty] at hx
  cases hx

theorem forall_release {P : α → Prop} {b : Bindings α} (h : ∀ name x, b.get? name = some x → P x)
    (name other : String) (x : α) (hx : (b.release name).get? other = some x) : P x := by
  rw [get?_release] at hx
  split at hx
  · cases hx
  · exact h other x hx

theorem forall_bind {P : α → Prop} {b : Bindings α} (h : ∀ name x, b.get? name = some x → P x)
    {y : α} (hy : P y) (name other : String) (x : α)
    (hx : (b.bind name y).get? other = some x) : P x := by
  rw [get?_bind] at hx
  split at hx
  · exact Option.some.inj hx ▸ hy
  · exact h other x hx

theorem forall_bindAll {P : α → Prop} : ∀ {pairs : List (String × α)} {b : Bindings α},
    (∀ name x, b.get? name = some x → P x) → (∀ p ∈ pairs, P p.2) →
    ∀ name x, (b.bindAll pairs).get? name = some x → P x
  | [], _, h, _ => h
  | (key, y) :: _, b, h, hpairs => by
    obtain ⟨hy, hpairs⟩ := List.forall_mem_cons.mp hpairs
    have first := forall_bind h (y := y) hy key
    exact forall_bindAll (b := b.bind key y) first hpairs

/-- Of several bindings of a name in a row the last one counts; a name that is not among them keeps
    what it was bound to. -/
theorem get?_bindAll (name : String) : ∀ (pairs : List (String × α)) (b : Bindings α),
    (b.bindAll pairs).get? name = (pairs.reverse.lookup name).or (b.get? name)
  | [], b => rfl
  | (key, x) :: pairs, b => by
    have ih := get?_bindAll name pairs (b.bind key x)
    simp only [bindAll, List.foldl_cons] at ih ⊢
    rw [ih, get?_bind, List.reverse_cons, List.lookup_append, lookup_cons_ite]
    by_cases h : name = key <;> simp [h]

end Bindings

end DiceNotation
