import DiceNotation.Proofs.Ensures
import DiceNotation.Proofs.Parts

/-!
Fragments of the notation.

A fragment says which numbers may occur in values and literals, which operators may be applied and
which names and paths may be spelled. It is closed if the operations on its numbers stay among them.
The whole notation is a fragment, and the values in it are the well-formed ones.
-/

namespace DiceNotation

/-- Which numbers, operators and names may occur. Paths are spelled like names. -/
structure Fragment where
  number : Number → Prop
  operator : InfixOp → Prop
  name : String → Prop

/-! ### What lies in a fragment -/

mutual

/-- Only numbers of the fragment are anywhere in the value, and no stray is. -/
def Value.In (F : Fragment) : Value → Prop
  | .number n => F.number n
  | .text _ => True
  | .list vs => Value.AllIn F vs
  | .stray _ => False

/-- The values are all in the fragment. -/
def Value.AllIn (F : Fragment) : List Value → Prop
  | [] => True
  | v :: vs => v.In F ∧ Value.AllIn F vs

end

/-- The literals, operators and names of an expression are in the fragment. -/
structure Expr.In (F : Fragment) (e : Expr) : Prop where
  lit : ∀ v ok, (Expr.lit v ok).Part e → v.In F
  op : ∀ o l r, (Expr.op o l r).Part e → F.operator o
  var : ∀ name, (Expr.var name).Part e → F.name name
  call : ∀ name args, (Expr.call name args).Part e → F.name name

/-- The values of variables and the bodies of functions are in the fragment. -/
structure Env.In (F : Fragment) (env : Env) : Prop where
  vars : ∀ name v, env.vars.get? name = some v → v.In F
  funs : ∀ name f, env.funs.get? name = some f → f.body.In F

variable {F : Fragment}

theorem Value.allIn_iff : ∀ vs : List Value, Value.AllIn F vs ↔ ∀ v ∈ vs, v.In F
  | [] => by simp [Value.AllIn]
  | v :: vs => by simp [Value.AllIn, Value.allIn_iff vs]

theorem Value.in_list_iff {vs : List Value} : (Value.list vs).In F ↔ ∀ v ∈ vs, v.In F := by
  rw [Value.In, Value.allIn_iff]

theorem Expr.In.of_part {p e : Expr} (h : e.In F) (hp : p.Part e) : p.In F where
  lit v ok hq := h.lit v ok (hq.trans hp)
  op o l r hq := h.op o l r (hq.trans hp)
  var name hq := h.var name (hq.trans hp)
  call name args hq := h.call name args (hq.trans hp)

/-- Arguments from the fragment bring their function no value from outside of it. -/
theorem Env.In.scope {env : Env} (h : env.In F) {bindings : List (String × Value)}
    (hb : ∀ b ∈ bindings, b.2.In F) : (env.scope bindings).In F where
  vars := Bindings.forall_bindAll h.vars hb
  funs := h.funs

/-! ### Well-formed values -/

/-- The whole notation. -/
def Fragment.whole : Fragment := ⟨fun _ => True, fun _ => True, fun _ => True⟩

mutual

theorem Value.in_whole_iff : ∀ v : Value, v.In .whole ↔ v.wellFormed = true
  | .number _ => by simp [Value.In, Value.wellFormed, Fragment.whole]
  | .text _ => by simp [Value.In, Value.wellFormed]
  | .list vs => by simpa only [Value.In, Value.wellFormed] using Value.allIn_whole_iff vs
  | .stray _ => by simp [Value.In, Value.wellFormed]

theorem Value.allIn_whole_iff : ∀ vs : List Value,
    Value.AllIn .whole vs ↔ Value.allWellFormed vs = true
  | [] => by simp [Value.AllIn, Value.allWellFormed]
  | v :: vs => by
    simp [Value.AllIn, Value.allWellFormed, Value.in_whole_iff v, Value.allIn_whole_iff vs]

end

theorem Expr.in_whole (e : Expr) : e.In .whole where
  lit v ok _ := (Value.in_whole_iff v).mpr ok
  op _ _ _ _ := trivial
  var _ _ := trivial
  call _ _ _ := trivial

theorem Value.In.mono {G : Fragment} (hN : ∀ n, F.number n → G.number n) :
    ∀ {v : Value}, v.In F → v.In G
  | .number n, h => hN n h
  | .text _, _ => trivial
  | .list vs, h => by
    rw [Value.in_list_iff] at h ⊢
    exact fun v hv => (h v hv).mono hN
  | .stray _, h => h

/-- In every fragment values are well formed. -/
theorem Value.In.wellFormed {v : Value} (h : v.In F) : v.wellFormed = true :=
  (Value.in_whole_iff v).mp (h.mono fun _ _ => trivial)

theorem Value.In.given {v : Value} (h : v.In F) : v.given? = some v :=
  Value.given?_of_wellFormed h.wellFormed

end DiceNotation
