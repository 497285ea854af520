import DiceNotation.Proofs.Span
import DiceNotation.Proofs.Sums

/-!
Trees of operators compute the integers that they denote.

Sums, differences, products and signs are put over expressions of any kind. If these come, one after
the other, to integers and to lists of integers, then so does the tree (`evalWith_tree`), with the
integer that it denotes for a total. A sum of two lists joins them and has the sum of their totals all
the same, so it does not matter where lists become numbers: what the tree comes to is a list as long
as there are lists and plus signs only, and an integer else (`ComesTo`). By induction on the tree,
with one lemma for the operators that have two operands and one for each sign.
-/

namespace DiceNotation

/-! ### Trees -/

/-- The operators on two integers that give an integer. -/
inductive ExactOp where
  | plus | minus | times
  deriving DecidableEq

namespace ExactOp

/-- The operator in expressions. -/
def symbol : ExactOp → InfixOp
  | plus => .plus | minus => .minus | times => .mul

/-- The operation on integers. -/
def onInts : ExactOp → Int → Int → Int
  | plus, m, n => m + n
  | minus, m, n => m - n
  | times, m, n => m * n

end ExactOp

/-- A tree of operators over leaves of any kind. -/
inductive OpTree (α : Type) where
  | leaf (a : α)
  | node (o : ExactOp) (l r : OpTree α)
  | pos (t : OpTree α)
  | neg (t : OpTree α)

namespace OpTree

variable {α β : Type}

/-- The tree with other leaves. -/
def map (f : α → β) : OpTree α → OpTree β
  | leaf a => leaf (f a)
  | node o l r => node o (l.map f) (r.map f)
  | pos t => pos (t.map f)
  | neg t => neg (t.map f)

/-- The leaves from left to right. -/
def leaves : OpTree α → List α
  | leaf a => [a]
  | node _ l r => l.leaves ++ r.leaves
  | pos t | neg t => t.leaves

/-- The tree as an expression. -/
def toExpr : OpTree Expr → Expr
  | leaf e => e
  | node o l r => .op o.symbol (some l.toExpr) (some r.toExpr)
  | pos t => .op .plus none (some t.toExpr)
  | neg t => .op .minus none (some t.toExpr)

/-- The integer that a tree over integers denotes. -/
def denote : OpTree Int → Int
  | leaf n => n
  | node o l r => o.onInts l.denote r.denote
  | pos t => t.denote
  | neg t => -t.denote

/-- Is every operator a plus? -/
def onlyPlus : OpTree α → Bool
  | leaf _ => true
  | node o l r => decide (o = .plus) && (l.onlyPlus && r.onlyPlus)
  | pos t => t.onlyPlus
  | neg _ => false

end OpTree

/-! ### One operator -/

/-- The items of a list. -/
def Value.items : Value → List Value
  | .list vs => vs
  | _ => []

theorem Value.eq_list_of_isList {v : Value} (h : v.isList = true) : v = .list v.items := by
  cases v with
  | list vs => rfl
  | _ => cases h

theorem Value.Totals.eq_int {v : Value} {n : Int} (h : v.Totals n) (hv : v.isList = false) :
    v = .int n := by
  cases h with
  | int n => rfl
  | pool ns => cases hv

/-- Where two lists are not added, an operator gives the integer that it gives for the totals. -/
theorem ExactOp.reduce_int {v w : Value} {m n : Int} (hv : v.Totals m) (hw : w.Totals n)
    {o : ExactOp} (h : o = .plus → v.isList = false ∨ w.isList = false) :
    reduce o.symbol (some v) (some w) = .ok (.int (o.onInts m n)) := by
  unfold reduce
  rw [hv.given, hw.given]
  cases o with
  | plus =>
    have apart : v.textContent? = none := by cases hv <;> rfl
    exact (Value.add_eq_binary (.inl apart) (h rfl)).trans (hv.binary hw rfl)
  | minus => exact hv.sub hw
  | times => exact hv.mul hw

namespace OpTree

variable {ι : Type} {value : ι → Value} {total : ι → Int} {t l r : OpTree ι} {v w : Value}

/-- What a tree comes to whose leaves have these values with these totals: a value with the total
    that the tree denotes, which is a list if there are lists and plus signs only, and then has all
    the items of these lists. -/
structure ComesTo (t : OpTree ι) (value : ι → Value) (total : ι → Int) (v : Value) : Prop where
  totals : v.Totals (t.map total).denote
  isList : v.isList = true ↔ t.onlyPlus = true ∧ ∀ i ∈ t.leaves, (value i).isList = true
  joined : v.isList = true → v = .list (t.leaves.flatMap fun i => (value i).items)

theorem ComesTo.leaf {i : ι} (h : (value i).Totals (total i)) :
    (OpTree.leaf i).ComesTo value total (value i) where
  totals := h
  isList := by simp [onlyPlus, leaves]
  joined hlist := by
    rw [leaves, List.flatMap_singleton]
    exact Value.eq_list_of_isList hlist

theorem ComesTo.pos (h : t.ComesTo value total v) :
    reduce .plus none (some v) = .ok v ∧ t.pos.ComesTo value total v := by
  refine ⟨?_, h.totals, h.isList, h.joined⟩
  unfold reduce
  rw [h.totals.given]
  rfl

theorem ComesTo.neg (h : t.ComesTo value total v) :
    ∃ n, reduce .minus none (some v) = .ok (.int n) ∧ t.neg.ComesTo value total (.int n) := by
  refine ⟨-(t.map total).denote, ?_, .int _, ?_, fun hlist => nomatch hlist⟩
  · unfold reduce
    rw [h.totals.given]
    exact h.totals.neg
  · exact ⟨fun hlist => (nomatch hlist), fun hplus => (nomatch hplus.1)⟩

/-- Two operands: lists are joined by a plus, and everything else gives an integer. -/
theorem ComesTo.node (hl : l.ComesTo value total v) (hr : r.ComesTo value total w) (o : ExactOp) :
    ∃ x, reduce o.symbol (some v) (some w) = .ok x ∧ (OpTree.node o l r).ComesTo value total x := by
  have lists : (OpTree.node o l r).onlyPlus = true ∧
      (∀ i ∈ (OpTree.node o l r).leaves, (value i).isList = true) ↔
      o = .plus ∧ v.isList = true ∧ w.isList = true := by
    rw [hl.isList, hr.isList, onlyPlus, leaves, Bool.and_eq_true, Bool.and_eq_true,
      decide_eq_true_iff, List.forall_mem_append]
    tauto
  by_cases h : o = .plus ∧ v.isList = true ∧ w.isList = true
  · obtain ⟨rfl, hv, hw⟩ := h
    have sum := hl.totals.add hr.totals
    rw [hl.joined hv, hr.joined hw] at sum ⊢
    refine ⟨_, rfl, sum, ?_, fun _ => ?_⟩
    · rw [lists]
      exact ⟨fun _ => ⟨rfl, hv, hw⟩, fun _ => rfl⟩
    · rw [leaves, List.flatMap_append]
  · refine ⟨_, ExactOp.reduce_int hl.totals hr.totals fun ho => ?_, .int _, ?_,
      fun hlist => nomatch hlist⟩
    · by_contra both
      simp only [not_or, Bool.not_eq_false] at both
      exact h ⟨ho, both⟩
    · rw [lists]
      exact ⟨fun hlist => (nomatch hlist), fun hlists => absurd hlists h⟩

/-! ### Evaluation -/

variable [Host] {env : Env} {call : String → List Value → Eval Value} {expr : ι → Expr}

/-- If its leaves are evaluated one after the other to values that have totals, a tree is evaluated
    without a failure, and the dice and the rolls are those of the leaves. -/
theorem evalWith_tree (t : OpTree ι) {d d' : Dice} {rolls : List Roll}
    (h : evalAllWith env call (t.leaves.map expr) d = ⟨.ok (t.leaves.map value), d', rolls⟩)
    (htotal : ∀ i ∈ t.leaves, (value i).Totals (total i)) :
    ∃ v, (t.map expr).toExpr.evalWith env call d = ⟨.ok v, d', rolls⟩ ∧
      t.ComesTo value total v := by
  induction t generalizing d d' rolls with
  | leaf i =>
    simp only [leaves, List.map_cons, List.map_nil, evalAllWith, pure_bind] at h
    obtain ⟨v, _, _, _, hv, single, rfl⟩ := Eval.exists_of_bind_ok h
    cases single
    rw [List.append_nil]
    exact ⟨value i, hv, .leaf (htotal i (List.mem_singleton_self i))⟩
  | node o l r ihl ihr =>
    obtain ⟨htotall, htotalr⟩ := List.forall_mem_append.mp htotal
    rw [leaves, List.map_append, List.map_append] at h
    obtain ⟨d₁, before, later, hl, hr, rfl⟩ :=
      exists_of_evalAllWith_append h (by rw [List.length_map, List.length_map])
    obtain ⟨v, hv, hlv⟩ := ihl hl htotall
    obtain ⟨w, hw, hrw⟩ := ihr hr htotalr
    obtain ⟨x, hx, hnode⟩ := hlv.node hrw o
    have both := Expr.evalWith_op_of_ok (o := o.symbol) (by cases o <;> decide) hv hw
    rw [hx] at both
    exact ⟨x, both, hnode⟩
  | pos t ih =>
    obtain ⟨v, hv, ht⟩ := ih h htotal
    have one := Expr.evalWith_op_right_of_ok (o := .plus) (by decide) hv
    rw [ht.pos.1] at one
    exact ⟨v, one, ht.pos.2⟩
  | neg t ih =>
    obtain ⟨v, hv, ht⟩ := ih h htotal
    obtain ⟨n, hn, hneg⟩ := ht.neg
    have one := Expr.evalWith_op_right_of_ok (o := .minus) (by decide) hv
    rw [hn] at one
    exact ⟨.int n, one, hneg⟩

end OpTree

/-- A tree of operators computes the integer that it denotes. Let `expr i` stand at each leaf `i` of
    a tree of sums, differences, products and signs, and let these expressions come, one after the
    other, to the values `value i`, each an integer or a list of integers with the total `total i`.
    Then the tree is evaluated to an integer or a list of integers, whose total is what the tree
    denotes over the totals of the leaves. It is a list exactly if every operator is a plus and every
    leaf is a list, and then it has the items of these lists in order. -/
theorem operator_tree_computes [Host] {ι : Type} (t : OpTree ι) (expr : ι → Expr) (value : ι → Value)
    (total : ι → Int) (env : Env) {d d' : Dice} {rolls : List Roll}
    (h : evalAllWith env env.call (t.leaves.map expr) d = ⟨.ok (t.leaves.map value), d', rolls⟩)
    (htotal : ∀ i ∈ t.leaves, (value i).Totals (total i)) :
    ∃ v, (t.map expr).toExpr.eval env d = ⟨.ok v, d', rolls⟩ ∧
      v.Totals (t.map total).denote ∧
      (v.isList = true ↔ t.onlyPlus = true ∧ ∀ i ∈ t.leaves, (value i).isList = true) ∧
      (v.isList = true → v = .list (t.leaves.flatMap fun i => (value i).items)) ∧
      (v.isList = false → v = .int (t.map total).denote) := by
  obtain ⟨v, hv, ht⟩ := t.evalWith_tree h htotal
  rw [← Expr.eval_eq] at hv
  exact ⟨v, hv, ht.totals, ht.isList, ht.joined, ht.totals.eq_int⟩

/-- Two pools are joined, and what is joined becomes a number where the first is taken off. -/
theorem joined_pools_less_one :
    let env : Env := { Env.initial with vars := Bindings.empty.bind "x" (.list [.int 1, .int 2]) }
    let expr : Bool → Expr := fun first =>
      if first then .var "x" else .list [.op .mul (some (.var "x")) (some (.lit (.int 4) rfl))]
    let value : Bool → Value := fun first =>
      if first then .list [.int 1, .int 2] else .list [.int 12]
    let total : Bool → Int := fun first => if first then 3 else 12
    let pools : OpTree Bool := .node .plus (.leaf true) (.pos (.leaf false))
    let t : OpTree Bool := .node .minus pools (.leaf true)
    ∀ d, evalAllWith env env.call (t.leaves.map expr) d = ⟨.ok (t.leaves.map value), d, []⟩ ∧
      (∀ i ∈ t.leaves, (value i).Totals (total i)) ∧
      (pools.map expr).toExpr.eval env d = ⟨.ok (.list [.int 1, .int 2, .int 12]), d, []⟩ ∧
      (t.map expr).toExpr.eval env d = ⟨.ok (.int 12), d, []⟩ := by
  intro env expr value total pools t d
  have htotal : ∀ i, (value i).Totals (total i) := by
    rintro (_ | _)
    · exact .pool [12]
    · exact .pool [1, 2]
  have hpools : evalAllWith env env.call (pools.leaves.map expr) d =
    ⟨.ok (pools.leaves.map value), d, []⟩ := rfl
  have ht : evalAllWith env env.call (t.leaves.map expr) d =
    ⟨.ok (t.leaves.map value), d, []⟩ := rfl
  obtain ⟨v, hv, -, isList, joined, -⟩ :=
    operator_tree_computes pools expr value total env hpools fun i _ => htotal i
  obtain ⟨w, hw, -, isList', -, number⟩ :=
    operator_tree_computes t expr value total env ht fun i _ => htotal i
  have lists : v.isList = true := isList.mpr ⟨rfl, by rintro (_ | _) _ <;> rfl⟩
  have noList : w.isList = false := Bool.eq_false_iff.mpr fun h => nomatch (isList'.mp h).1
  rw [joined lists] at hv
  rw [number noList] at hw
  exact ⟨ht, fun i _ => htotal i, hv, hw⟩

end DiceNotation
