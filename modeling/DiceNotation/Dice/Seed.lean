import DiceNotation.Dice.Sha512
import DiceNotation.Dice.Twister

/-!
Seeds of the dice: integers and texts.

An integer seeds with its magnitude, cut into words, the least significant one first. A text seeds
with the big-endian number that its bytes and their digest form together.
-/

namespace DiceNotation

/-- What dice are seeded with. -/
inductive Seed where
  | int (n : Int)
  | text (s : String)

namespace Seed

/-- The lowest `count` words of a number, the least significant one first. -/
def lowWords : Nat → Nat → List UInt32
  | 0, _ => []
  | count + 1, n => UInt32.ofNat n :: lowWords count (n >>> 32)

/-- The words of a number without leading zeros; zero is one word. -/
def words (n : Nat) : List UInt32 := lowWords (n.log2 / 32 + 1) n

/-- The number that a seed stands for. -/
def number : Seed → Nat
  | int n => n.natAbs
  | text s =>
    let bytes := s.toUTF8.toList
    (Sha512.bigEndian bytes <<< 512) + Sha512.digest bytes

/-- Dice in the state that a seed starts from. -/
def dice (s : Seed) : Dice := Twister.ofKey (words s.number).toArray

end Seed

end DiceNotation
