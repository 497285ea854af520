import DiceNotation.Binary64.Shortest
import DiceNotation.Text.Numeral

/-!
The decimal text of a binary64 number, written and read.

Written, a number has the fewest digits that read back. They are laid out positionally, always with
a fractional part, when the first digit stands for `10 ^ e` with `-4 ≤ e < 16`, and otherwise with
an exponent of a sign and at least two digits. Reading takes a sign, digits with a point and an
exponent, `inf`, `infinity` or `nan`, as a numeral may be written, and rounds once.
-/

namespace DiceNotation

namespace Decimal

/-- An exponent as written: a sign and at least two digits. -/
def exponentText (e : Int) : String :=
  let n := e.natAbs
  (if e < 0 then "e-" else "e+") ++ (if n < 10 then "0" else "") ++ toString n

/-- The text of a positive decimal or zero. -/
def layout (d : Decimal) : String :=
  let ds := (toString d.digits).toList
  let count := ds.length
  let lead := d.exponent + count - 1
  if -4 ≤ lead ∧ lead < 16 then
    if lead < 0 then
      "0." ++ String.ofList (List.replicate (-lead - 1).toNat '0' ++ ds)
    else
      let whole := lead.toNat + 1
      let filled := ds ++ List.replicate (whole - count) '0'
      let fraction := filled.drop whole
      String.ofList (filled.take whole) ++ "." ++
        (if fraction.isEmpty then "0" else String.ofList fraction)
  else
    let rest := ds.drop 1
    String.ofList (ds.take 1) ++ (if rest.isEmpty then "" else "." ++ String.ofList rest) ++
      exponentText lead

/-- The nearest binary64 number with the given sign. Far outside the range no power of ten is
    computed. -/
def toBinary64 (negative : Bool) (d : Decimal) : Binary64 :=
  let lead := d.exponent + (toString d.digits).length
  if d.digits = 0 ∨ lead < -400 then .zero negative
  else if 400 < lead then .infinite negative
  else .roundRatio negative (d.digits * powNum 10 d.exponent) (powDen 10 d.exponent)

end Decimal

namespace Binary64

/-- The shortest text that reads back as the number. -/
def toText : Binary64 → String
  | nan => "nan"
  | infinite true => "-inf"
  | infinite false => "inf"
  | finite x => (if x.negative then "-" else "") ++ x.shortest.layout

/-- Reads the exponent part to the end of the text; none is zero. -/
def readExponent? : List Char → Option Int
  | [] => some 0
  | c :: cs =>
    let (negative, ds) := Text.takeSign cs
    if (c = 'e' ∨ c = 'E') ∧ ds ≠ [] ∧ ds.all Char.isDigit then
      some (Text.signed negative (Text.digitsValue ds))
    else none

/-- Reads an unsigned decimal to the end of the text. -/
def readDecimal? (cs : List Char) : Option Decimal :=
  let whole := cs.takeWhile Char.isDigit
  let afterWhole := cs.dropWhile Char.isDigit
  let (fraction, rest) := match afterWhole with
    | '.' :: r => (r.takeWhile Char.isDigit, r.dropWhile Char.isDigit)
    | r => ([], r)
  if whole.isEmpty && fraction.isEmpty then none
  else (readExponent? rest).map fun e =>
    ⟨Text.digitsValue (whole ++ fraction), e - fraction.length⟩

/-- Reads a number. -/
def ofText? (s : String) : Option Binary64 := do
  let (negative, cs) := Text.takeSign (← Text.plain? s)
  let word := cs.map Char.toLower
  if word = "nan".toList then some nan
  else if word = "inf".toList ∨ word = "infinity".toList then some (infinite negative)
  else (readDecimal? cs).map (·.toBinary64 negative)

end Binary64

end DiceNotation
