import DiceNotation.Proofs.Numerals
import DiceNotation.Proofs.Safety

/-!
Diagnostics of one line.

The message of an error is put together from fixed texts and from the forms that it mentions, so it has
a line break only where one of these has (`Error.message_oneLine`). Commands mention symbols, numbers,
names and paths, and the kinds of objects that stand in the wrong place; of a value that is refused they
give the type, never the content (`Refused.plain`). Hence the lines that a run notes about failed
commands are single lines if names and paths are, whatever texts the commands work on
(`diagnostics_oneLine`).
-/

namespace DiceNotation

open Unlimited

open Outcome

/-- There is no line break in the text. -/
def OneLine (s : String) : Prop := '\n' ∉ s.toList

instance (s : String) : Decidable (OneLine s) := inferInstanceAs (Decidable ('\n' ∉ s.toList))

/-! ### Texts of one line -/

theorem OneLine.append {s t : String} (hs : OneLine s) (ht : OneLine t) : OneLine (s ++ t) := by
  rw [OneLine, String.toList_append, List.mem_append, not_or]
  exact ⟨hs, ht⟩

/-- A numeral consists of digits and a sign. -/
theorem oneLine_int (n : Int) : OneLine (toString n) := fun h =>
  absurd (Text.plain_of_mem_toString n _ h) (by simp [Text.IsPlain])

theorem oneLine_intText (n : Int) : OneLine (Number.intText n) := by
  unfold Number.intText
  dsimp only
  split
  · refine .append (.append (.append ?_ (by decide)) (oneLine_int _)) (by decide)
    split <;> decide
  · exact oneLine_int n

theorem oneLine_kind (k : Kind) : OneLine k.name := by
  cases k with
  | symbol f => cases f <;> decide
  | record k => cases k <;> decide
  | _ => decide

theorem oneLine_operator (o : InfixOp) : OneLine (Form.shown o) := by cases o <;> decide

theorem oneLine_type (t : ValueType) : OneLine (Form.shown t) := by cases t <;> decide

theorem oneLine_side (s : Side) : OneLine (Form.shown s) := by cases s <;> decide

theorem oneLine_builtin (b : Builtin) : OneLine b.name := by cases b <;> decide

/-! ### Messages -/

namespace Error

theorem withDetail_oneLine {cause : String} {detail : Form} (hc : OneLine cause)
    (hd : OneLine detail.shown) : OneLine (withDetail cause detail) := by
  unfold withDetail
  split
  · exact hc
  · exact (hc.append (by decide)).append hd

theorem unlessBlank_oneLine (description : String) {m : Form} (hd : OneLine description)
    (hm : OneLine m.shown) : OneLine (if m.isBlank then description else m.shown) := by
  split
  · exact hd
  · exact hm

/-- The message of an error is of one line if all that it mentions is. -/
theorem message_oneLine {e : Error} (h : ∀ f ∈ e.mentions, OneLine f.shown) : OneLine e.message := by
  cases e with
  | general m => exact unlessBlank_oneLine "roller error" (by decide) (h m (by simp [mentions]))
  | building m => exact unlessBlank_oneLine "syntax error" (by decide) (h m (by simp [mentions]))
  | evaluating m =>
    exact unlessBlank_oneLine "evaluation error" (by decide) (h m (by simp [mentions]))
  | unexpectedToken t => exact .append (by decide) (h t (by simp [mentions]))
  | malformed d => exact withDetail_oneLine (by decide) (h d (by simp [mentions]))
  | missingOperand op side =>
    have hop := h op (by simp [mentions])
    have hside := h side (by simp [mentions])
    exact .append (.append (.append (.append (by decide) hside) (by decide)) hop) (by decide)
  | noOperands op =>
    exact .append (.append (by decide) (h op (by simp [mentions]))) (by decide)
  | typeMismatch expected found =>
    have hexpected := h expected (by simp [mentions])
    have hfound := h found (by simp [mentions])
    exact .append (.append (.append (by decide) hexpected) (by decide)) hfound
  | negativeArgument v =>
    refine .append (by decide) ?_
    cases v with
    | int n => exact oneLine_intText n
    | _ => exact h _ (by simp [mentions])
  | undefinedIdentifier name =>
    exact .append (.append (by decide) (h name (by simp [mentions]))) (by decide)
  | arityMismatch name expected found =>
    have hname := h name (by simp [mentions])
    have hexpected := h expected (by simp [mentions])
    have hfound := h found (by simp [mentions])
    exact .append (.append (.append (.append (.append (by decide) hname) (by decide)) hexpected)
      (by decide)) hfound
  | divisionByZero op =>
    exact .append (.append (by decide) (h op (by simp [mentions]))) (by decide)
  | invalidOperation op d =>
    have hop := h op (by simp [mentions])
    have hd := h d (by simp [mentions])
    exact .append (.append (.append (by decide) hop) (by decide)) hd
  | unimplemented f => exact withDetail_oneLine (by decide) (h f (by simp [mentions]))
  | _ => decide

/-- The error is not one of the general ones, whose message may be any text. -/
def Specific : Error → Prop
  | general _ | building _ | evaluating _ => False
  | _ => True

theorem append_ne_empty {s : String} (h : s ≠ "") (t : String) : s ++ t ≠ "" := by
  simp [h]

theorem withDetail_ne_empty {cause : String} (h : cause ≠ "") (detail : Form) :
    withDetail cause detail ≠ "" := by
  unfold withDetail
  split
  · exact h
  · exact append_ne_empty (append_ne_empty h _) _

theorem message_ne_empty {e : Error} (h : e.Specific) : e.message ≠ "" := by
  cases e with
  | general | building | evaluating => exact h.elim
  | malformed d => exact withDetail_ne_empty (by decide) d
  | unimplemented f => exact withDetail_ne_empty (by decide) f
  | unexpectedToken | negativeArgument => exact append_ne_empty (by decide) _
  | noOperands | undefinedIdentifier | divisionByZero =>
    exact append_ne_empty (append_ne_empty (by decide) _) _
  | typeMismatch | invalidOperation =>
    exact append_ne_empty (append_ne_empty (append_ne_empty (by decide) _) _) _
  | missingOperand =>
    exact append_ne_empty
      (append_ne_empty (append_ne_empty (append_ne_empty (by decide) _) _) _) _
  | arityMismatch =>
    exact append_ne_empty (append_ne_empty
      (append_ne_empty (append_ne_empty (append_ne_empty (by decide) _) _) _) _) _
  | _ => decide

/-- The error is a specific one and mentions nothing but what is of one line. -/
structure Plain (e : Error) : Prop where
  specific : e.Specific
  mentions : ∀ f ∈ e.mentions, OneLine f.shown

end Error

/-! ### Failures of commands -/

/-- Numbers, operators and texts of any kind, but names of one line. -/
def Fragment.oneLine : Fragment := ⟨fun _ => True, fun _ => True, OneLine⟩

/-- The operation that a fault is reported under is of one line. -/
def FaultOneLine (op : Form) (_ : Fault) : Prop := OneLine op.shown

theorem Fragment.oneLine_closed : Fragment.oneLine.Closed FaultOneLine := by
  refine closed_of_all (fun _ => trivial) ?_
  rintro _ (o | _) _
  · exact oneLine_operator o
  · exact oneLine_builtin .sum

theorem oneLine_single {f : Form} (hf : OneLine f.shown) : ∀ h ∈ [f], OneLine h.shown := by
  simp [hf]

theorem oneLine_pair {f g : Form} (hf : OneLine f.shown) (hg : OneLine g.shown) :
    ∀ h ∈ [f, g], OneLine h.shown := by
  simp [hf, hg]

theorem Raised.plain {f : Failure} (h : Raised OneLine FaultOneLine f) :
    ∃ e, f = .error e ∧ e.Plain := by
  have number : OneLine (Form.shown "number") := by decide
  cases h with
  | @fault op f hop =>
    refine ⟨_, rfl, ?_⟩
    cases f with
    | zeroDivision => exact ⟨trivial, oneLine_single hop⟩
    | tooLarge => exact ⟨trivial, oneLine_pair hop (by decide)⟩
    | notReal => exact ⟨trivial, oneLine_pair hop (by decide)⟩
  | notNumber found => exact ⟨_, rfl, trivial, oneLine_pair number (oneLine_type found)⟩
  | notType expected found =>
    exact ⟨_, rfl, trivial, oneLine_pair (oneLine_type expected) (oneLine_type found)⟩
  | missing op side => exact ⟨_, rfl, trivial, oneLine_pair (oneLine_side side) (oneLine_operator op)⟩
  | noOperands op => exact ⟨_, rfl, trivial, oneLine_single (oneLine_operator op)⟩
  | negative n => exact ⟨_, rfl, trivial, by simp [Error.mentions]⟩
  | tooManyDice limit =>
    exact ⟨_, rfl, trivial, oneLine_pair (oneLine_operator .dice)
      (.append (.append (by decide) (oneLine_int limit)) (by decide))⟩
  | undefined hx => exact ⟨_, rfl, trivial, oneLine_single hx⟩
  | arity expected found hx =>
    refine ⟨_, rfl, trivial, ?_⟩
    rw [Error.mentions, List.forall_mem_cons]
    exact ⟨hx, oneLine_pair (oneLine_int expected) (oneLine_int found)⟩
  | tooDeep limit hx =>
    exact ⟨_, rfl, trivial, oneLine_pair hx (.append (by decide) (oneLine_int limit))⟩
  | builtinArity b found =>
    refine ⟨_, rfl, trivial, ?_⟩
    rw [Error.mentions, List.forall_mem_cons]
    exact ⟨oneLine_builtin b, oneLine_pair (oneLine_int 1) (oneLine_int found)⟩
  | noValues b => exact ⟨_, rfl, trivial, oneLine_pair (oneLine_builtin b) (by decide)⟩
  | range => exact ⟨_, rfl, trivial, by decide⟩
  | filter => exact ⟨_, rfl, trivial, by decide⟩
  | notExpr kind => exact ⟨_, rfl, trivial, oneLine_single (.append (oneLine_kind kind) (by decide))⟩

theorem Refused.plain {f : Failure} (h : Refused OneLine FaultOneLine f) :
    ∃ e, f = .error e ∧ e.Plain := by
  cases h with
  | raised h => exact h.plain
  | run hpath => exact ⟨_, rfl, trivial, oneLine_single (.append (by decide) hpath)⟩
  | save hpath => exact ⟨_, rfl, trivial, oneLine_single (.append (by decide) hpath)⟩
  | bare => exact ⟨_, rfl, trivial, by decide⟩
  | notStmt kind => exact ⟨_, rfl, trivial, oneLine_single (.append (oneLine_kind kind) (by decide))⟩
  | notCommand kind =>
    exact ⟨_, rfl, trivial, oneLine_single (.append (oneLine_kind kind) (by decide))⟩

/-! ### Diagnostics -/

/-- The line is a diagnostic: after the prefix comes some text, all of it on the same line. -/
def IsDiagnostic (line : String) : Prop :=
  ∃ text, line = "Error: " ++ text ∧ text ≠ "" ∧ OneLine text

theorem Error.Plain.isDiagnostic {e : Error} (h : e.Plain) : IsDiagnostic (Session.diagnostic e) :=
  ⟨e.message, rfl, message_ne_empty h.specific, message_oneLine h.mentions⟩

/-- Literals may be any, so only the names count. -/
theorem Expr.in_oneLine {e : Expr} (hvar : ∀ name, (Expr.var name).Part e → OneLine name)
    (hcall : ∀ name args, (Expr.call name args).Part e → OneLine name) : e.In .oneLine where
  lit v ok _ := ((Value.in_whole_iff v).mpr ok).mono fun _ _ => trivial
  op _ _ _ _ := trivial
  var := hvar
  call := hcall

/-- Texts are anywhere in the fragment, so well-formed variables are. -/
theorem Env.in_oneLine {env : Env} (h : env.WellFormed)
    (hfuns : ∀ name f, env.funs.get? name = some f → f.body.In .oneLine) : env.In .oneLine where
  vars name v hv := ((Value.in_whole_iff v).mpr (h name v hv)).mono fun _ _ => trivial
  funs := hfuns

/-- Where names and paths are of one line, in the commands and in the functions at hand, each failed
    command of a run leaves one line about it, whatever texts the commands work on. -/
theorem diagnostics_oneLine (s : Session) (henv : s.env.WellFormed)
    (hfuns : ∀ name f, s.env.funs.get? name = some f → f.body.In .oneLine) (cs : List Command)
    (hcs : ∀ c ∈ cs, c.In .oneLine) :
    ∃ lines, (s.run cs).session.diagnostics = s.diagnostics ++ lines ∧
      ∀ line ∈ lines, IsDiagnostic line := by
  have outcomes := Session.outcomes_in Fragment.oneLine_closed (Env.in_oneLine henv hfuns) hcs
  refine ⟨(s.outcomes cs).filterMap line?, ?_, ?_⟩
  · rw [Session.run_eq_of_wellFormed henv cs]
    exact Session.diagnostics_after cs s
  · intro line hline
    obtain ⟨o, ho, hoLine⟩ := List.mem_filterMap.mp hline
    have refused := outcomes o ho
    rcases o with f | w
    · obtain ⟨e, rfl, he⟩ := Refused.plain refused
      obtain rfl := Option.some.inj hoLine
      exact he.isDiagnostic
    · cases hoLine

/-- Texts full of line breaks that are added, negated and given to functions, and names that are not
    defined. -/
theorem lines_of_broken_texts :
    let broken : Value := .text "a\nb\n"
    let env : Env := { Env.initial with
      vars := Bindings.empty.bind "x" broken
      funs := Bindings.empty.bind "f" ⟨["n"], .op .plus (some (.lit broken (by decide))) (some (.var "n"))⟩ }
    let s : Session := ⟨env, (Seed.int 7).dice, [], ["Error: earlier"]⟩
    let cs : List Command := [.expression (.call "f" [.var "x"]),
      .expression (.call "f" [.list [.var "x"]]),
      .expression (.op .minus none (some (.lit broken (by decide)))),
      .expression (.call "g" [.var "x"]), .statement (.run ⟨0, ["scripts", "start"]⟩)]
    let lines := ["Error: Expected a value of type number, found text",
      "Error: Expected a value of type number, found text",
      "Error: Undefined identifier 'g'", "Error: Unimplemented feature: run scripts/start"]
    s.env.WellFormed ∧ (∀ name f, s.env.funs.get? name = some f → f.body.In .oneLine) ∧
      (∀ c ∈ cs, c.In .oneLine) ∧
      (s.run cs).session.diagnostics = s.diagnostics ++ lines ∧
      ∃ lines, (s.run cs).session.diagnostics = s.diagnostics ++ lines ∧
        ∀ line ∈ lines, IsDiagnostic line := by
  intro broken env s cs lines
  have henv : s.env.WellFormed :=
    Bindings.forall_bind (fun name v hv => nomatch hv) (by decide) "x"
  have hbody : Expr.In .oneLine (.op .plus (some (.lit broken (by decide))) (some (.var "n"))) :=
    Expr.in_oneLine (by simp; decide) (by simp)
  have hfuns : ∀ name f, s.env.funs.get? name = some f → f.body.In .oneLine :=
    Bindings.forall_bind (P := fun f : Function => f.body.In .oneLine) Bindings.forall_empty hbody "f"
  have hcs : ∀ c ∈ cs, c.In .oneLine := by
    simp only [cs, List.forall_mem_cons]
    refine ⟨?_, ?_, ?_, ?_, ?_, by simp⟩
    · exact Expr.in_oneLine (by simp; decide) (by simp; decide)
    · exact Expr.in_oneLine (by simp; decide) (by simp; decide)
    · exact Expr.in_oneLine (by simp) (by simp)
    · exact Expr.in_oneLine (by simp; decide) (by simp; decide)
    · show OneLine _
      decide
  refine ⟨henv, hfuns, hcs, ?_, diagnostics_oneLine s henv hfuns cs hcs⟩
  decide +kernel

end DiceNotation
