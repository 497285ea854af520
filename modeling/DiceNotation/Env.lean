import DiceNotation.Bindings
import DiceNotation.Builtin
import DiceNotation.Expr

/-!
Environments: what names mean, and the limits of evaluation.

Variables and functions share one set of names: to bind a name as one releases it as the other, so
the last change of a name decides. The built-in functions are apart from these and never change.
-/

namespace DiceNotation

/-- Everything but the dice that a command can read or change. -/
structure Env where
  vars : Bindings Value
  funs : Bindings Function
  builtins : Bindings Builtin
  maxCallDepth : Int
  maxRollCount : Int
  callDepth : Int

/-- A change of an environment. -/
inductive Mutation where
  | assign (name : String) (v : Value)
  | declare (name : String) (f : Function)
  | delete (name : String)
  | clear

namespace Env

/-- Every built-in function under its own name. -/
def standardBuiltins : Bindings Builtin := .ofList (Builtin.all.map fun f => (f.name, f))

/-- The environment without bindings, with the usual limits. -/
def initial : Env := ⟨.empty, .empty, standardBuiltins, 64, 100000, 0⟩

/-- The environment without its bindings, outside any call; functions built in and limits stay. -/
def reset (env : Env) : Env :=
  { env with vars := .empty, funs := .empty, callDepth := 0 }

/-- The value of a variable. -/
def lookup (env : Env) (name : String) : Outcome Value :=
  match env.vars.get? name with
  | some v => .ok v
  | none => fail (.undefinedIdentifier name)

/-- The environment after a change. -/
def apply (env : Env) : Mutation → Env
  | .assign name v =>
    { env with funs := env.funs.release name, vars := env.vars.bind name v }
  | .declare name f =>
    { env with vars := env.vars.release name, funs := env.funs.bind name f }
  | .delete name =>
    { env with vars := env.vars.release name, funs := env.funs.release name }
  | .clear => { env with vars := .empty, funs := .empty }

/-- The environment of a function body: the caller's, with the parameters bound over its variables
    and one call deeper. -/
def scope (env : Env) (bindings : List (String × Value)) : Env :=
  { env with vars := env.vars.bindAll bindings, callDepth := env.callDepth + 1 }

/-- How many calls may still be nested. -/
def callsLeft (env : Env) : Nat := (env.maxCallDepth - env.callDepth).toNat

theorem callsLeft_scope (env : Env) (bindings : List (String × Value)) :
    (env.scope bindings).callsLeft = env.callsLeft - 1 := by
  simp only [callsLeft, scope]
  omega

end Env

end DiceNotation
