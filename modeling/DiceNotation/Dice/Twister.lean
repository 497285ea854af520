/-!
The Mersenne twister MT19937: a source of 32-bit words.

The state is 624 words and the number of those already handed out. When all are used up, `twist`
replaces them one after another, each from its successor and the word 397 places on, counted in a
circle. `ofKey` spreads a key of any length over a whole state.
-/

namespace DiceNotation

/-- The words of the state. -/
abbrev Twister.Words := Vector UInt32 624

/-- The state of the generator. -/
structure Twister where
  words : Twister.Words
  used : Nat

namespace Twister

/-- The word at a place of the circle. -/
def Words.at (w : Words) (i : Nat) : UInt32 := w.get ⟨i % 624, Nat.mod_lt i (by decide)⟩

/-- The words with the one at a place of the circle replaced. -/
def Words.put (w : Words) (i : Nat) (x : UInt32) : Words :=
  w.set (i % 624) x (Nat.mod_lt i (by decide))

/-- Replaces the word at a place by the recurrence of the generator. -/
def Words.renew (w : Words) (i : Nat) : Words :=
  let y := (w.at i &&& 0x80000000) ||| (w.at (i + 1) &&& 0x7fffffff)
  let mask : UInt32 := if y &&& 1 = 0 then 0 else 0x9908b0df
  w.put i (w.at (i + 397) ^^^ (y >>> 1) ^^^ mask)

/-- Replaces all words. -/
def Words.twist (w : Words) : Words := (List.range 624).foldl Words.renew w

/-- Scrambles the bits of a word on its way out. -/
def temper (y : UInt32) : UInt32 :=
  let y := y ^^^ (y >>> 11)
  let y := y ^^^ ((y <<< 7) &&& 0x9d2c5680)
  let y := y ^^^ ((y <<< 15) &&& 0xefc60000)
  y ^^^ (y >>> 18)

/-- The next word, and the state after it. -/
def next (t : Twister) : UInt32 × Twister :=
  if t.used < 624 then (temper (t.words.at t.used), { t with used := t.used + 1 })
  else
    let words := t.words.twist
    (temper (words.at 0), ⟨words, 1⟩)

/-! ### Seeding -/

/-- The words that follow from a single one. -/
def Words.ofWord (seed : UInt32) : Words :=
  (List.range 623).foldl
    (fun (w : Words) i =>
      let p := w.at i
      w.put (i + 1) ((p ^^^ (p >>> 30)) * 1812433253 + UInt32.ofNat (i + 1)))
    (Vector.replicate 624 seed)

/-- Replaces the word at a place after the first one by a mixture of it and its predecessor. The
    last place is copied to the first, which precedes the second. -/
def Words.blend (w : Words) (i : Nat) (factor : UInt32) (mix : UInt32 → UInt32) : Words :=
  let p := w.at (i - 1)
  let x := mix (w.at i ^^^ ((p ^^^ (p >>> 30)) * factor))
  let w := w.put i x
  if i = 623 then w.put 0 x else w

/-- The place at which a step of the seeding works: places 1 to 623, over and over. -/
def place (step : Nat) : Nat := 1 + step % 623

/-- The state for a key of at least one word: every word of the key is mixed in, the key repeated
    if it is shorter than the state, and then the places are mixed in once more. -/
def ofKey (key : Array UInt32) : Twister :=
  let steps := max 624 key.size
  let absorb (w : Words) (s : Nat) : Words :=
    let j := s % key.size
    w.blend (place s) 1664525 fun x => x + key.getD j 0 + UInt32.ofNat j
  let stir (w : Words) (s : Nat) : Words :=
    let i := place (steps + s)
    w.blend i 1566083941 fun x => x - UInt32.ofNat i
  let w := (List.range steps).foldl absorb (Words.ofWord 19650218)
  let w := (List.range 623).foldl stir w
  ⟨w.put 0 0x80000000, 624⟩

end Twister

/-- The source of random words that all rolls share. -/
abbrev Dice := Twister

end DiceNotation
