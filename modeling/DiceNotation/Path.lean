import DiceNotation.Text.Quoted

/-!
Paths of scripts, in normal form.

A path is its root, as a number of leading slashes, and its components. Empty components and single
dots are dropped, double dots are kept. Exactly two leading slashes stay two, more of them count as
one, and a path with nothing left is a single dot.
-/

namespace DiceNotation

/-- A path in normal form. -/
structure Path where
  rootSlashes : Nat
  components : List String
  deriving DecidableEq

namespace Path

/-- Reads a path. -/
def ofText (s : String) : Path :=
  let slashes := (s.toList.takeWhile (· == '/')).length
  let root := if slashes ≤ 2 then slashes else 1
  ⟨root, (s.splitOn "/").filter fun c => c != "" && c != "."⟩

/-- The path as text. -/
def shown (p : Path) : String :=
  let text := String.ofList (List.replicate p.rootSlashes '/') ++ "/".intercalate p.components
  if text.isEmpty then "." else text

/-- The path spelled out with its kind. -/
def written (p : Path) : String := "PurePosixPath(" ++ Text.quoted p.shown ++ ")"

end Path

end DiceNotation
