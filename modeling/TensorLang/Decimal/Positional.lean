import TensorLang.Decimal.Shortest

/-!
# Positional notation

Numbers are written and read without exponents: digits, with at most one point among them.
-/

namespace TensorLang

namespace Decimal

/-- The digits of a decimal below one, after its point and without trailing zeros. -/
def trimZeros (fraction : List Char) : List Char :=
  (fraction.reverse.dropWhile (· == '0')).reverse

/-- Digits of the whole part and of the fraction, which has no trailing zeros. -/
def parts (decimal : Decimal) : List Char × List Char :=
  let digits := Nat.toDigits 10 decimal.digits
  if 0 ≤ decimal.exponent then
    if decimal.digits = 0 then
      (['0'], [])
    else
      (digits ++ List.replicate decimal.exponent.toNat '0', [])
  else
    let places := (-decimal.exponent).toNat
    let padded := List.replicate (places + 1 - digits.length) '0' ++ digits
    (padded.take (padded.length - places), trimZeros (padded.drop (padded.length - places)))

/-- The decimal in positional notation; a whole number has no point. -/
def text (decimal : Decimal) : String :=
  match decimal.parts with
  | (whole, []) => String.ofList whole
  | (whole, fraction) => String.ofList (whole ++ '.' :: fraction)

end Decimal

/-- A double in positional notation, with the fewest digits that read back as it. -/
def numberText (value : Float) : String :=
  let sign := if signBit value then "-" else ""
  match magnitude value with
  | .nan => "NaN"
  | .infinite => sign ++ "inf"
  | .finite 0 _ => sign ++ "0"
  | .finite significand exponent =>
      sign ++ (RoundingInterval.ofFinite significand exponent).shortest.text

/-- The whole number that a list of decimal digits spells. -/
def digitsValue (digits : List Char) : Nat :=
  digits.foldl (fun value digit => 10 * value + (digit.toNat - '0'.toNat)) 0

/-- Reads digits with at most one point and at least one digit as the nearest double. -/
def parseDouble? (text : String) : Option Float :=
  let whole := text.toList.takeWhile Char.isDigit
  let fraction? : Option (List Char) :=
    match text.toList.dropWhile Char.isDigit with
    | [] => some []
    | '.' :: fraction => if fraction.all Char.isDigit then some fraction else none
    | _ => none
  match fraction? with
  | none => none
  | some fraction =>
      if whole.isEmpty && fraction.isEmpty then
        none
      else
        some (nearestDouble (digitsValue (whole ++ fraction)) (powerOfTen fraction.length))

/-- Reads digits alone as a whole number below `bound`. -/
def parseNatural? (bound : Nat) (text : String) : Option Nat :=
  let digits := text.toList
  if !digits.isEmpty && digits.all Char.isDigit && digitsValue digits < bound then
    some (digitsValue digits)
  else
    none

theorem parseNatural?_eq_some_iff {bound value : Nat} {text : String} :
    parseNatural? bound text = some value ↔
      text.toList ≠ [] ∧ (∀ digit ∈ text.toList, digit.isDigit) ∧
        digitsValue text.toList < bound ∧ digitsValue text.toList = value := by
  simp [parseNatural?, and_assoc]

end TensorLang
