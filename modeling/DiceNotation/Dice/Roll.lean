import DiceNotation.Dice.Seed
import DiceNotation.Number

/-!
Rolling dice.

A face of a die with `s` sides is drawn by taking as many random bits as `s` has until they are
below `s`. At least half of all candidates are, so a long series of refusals does not happen. The loop
itself has no bound; here it has one, `maxTries`, and a draw that reaches it takes what remains of the
next candidate. So every draw ends, and one that ends by itself is not changed by the bound
(`Dice.faces_of_accepts`).
-/

namespace DiceNotation

/-- A finished roll: what was asked for, and the faces. -/
structure Roll where
  count : Int
  sides : Int
  faces : List Int
  deriving DecidableEq

namespace Dice

/-- `full` whole words and the top `rest` bits of another one, the first word lowest. -/
def words : (full rest : Nat) → Dice → Nat × Dice
  | 0, rest, d =>
    let (w, d) := d.next
    (w.toNat >>> (32 - rest), d)
  | full + 1, rest, d =>
    let (w, d) := d.next
    let (high, d) := words full rest d
    (w.toNat + (high <<< 32), d)

/-- A number of `k` random bits, for a positive `k`. Whether the host is able to draw as many is settled
    before the first of them (`rollDefect?`). -/
def bits (k : Nat) (d : Dice) : Nat × Dice :=
  let full := (k - 1) / 32
  d.words full (k - 32 * full)

/-- The number of candidates for a face that may be refused. -/
def maxTries : Nat := 4096

/-- A number below `s`, after at most `tries` candidates that are not. -/
def below (s : Nat) : (tries : Nat) → Dice → Nat × Dice
  | 0, d =>
    let (r, d) := d.bits (Number.bitLength s)
    (r % s, d)
  | tries + 1, d =>
    let (r, d) := d.bits (Number.bitLength s)
    if r < s then (r, d) else below s tries d

/-- A face of a die with `s` sides, from 1 to `s`. -/
def face (s : Nat) (d : Dice) : Int × Dice :=
  let (r, d) := d.below s maxTries
  (r + 1, d)

/-- The faces of `n` dice, after those already drawn in reverse. -/
def facesOnto (s : Nat) (drawn : List Int) : Nat → Dice → List Int × Dice
  | 0, d => (drawn.reverse, d)
  | n + 1, d =>
    let (x, d) := d.face s
    facesOnto s (x :: drawn) n d

/-- The faces of `n` dice with `s` sides. A die without sides shows 0 and draws nothing. -/
def faces (n s : Nat) (d : Dice) : List Int × Dice :=
  if s = 0 then (List.replicate n 0, d) else facesOnto s [] n d

end Dice

end DiceNotation
