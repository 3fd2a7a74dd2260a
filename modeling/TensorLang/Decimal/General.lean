import TensorLang.Decimal.Positional

/-!
# General notation

Numbers far from one are written in scientific notation, all others positionally with at least one
decimal place.
-/

namespace TensorLang

/-- Which powers of ten are written positionally. -/
structure GeneralFormat where
  /-- The least power of ten of a leading digit that is written positionally. -/
  least : Int
  /-- The greatest power of ten of a leading digit that is written positionally. -/
  greatest : Int

/-- Outlines write numbers from one ten-thousandth up to below ten to the sixteenth positionally. -/
def outlineFormat : GeneralFormat := ⟨-4, 15⟩

namespace Decimal

/-- The significant digits, without zeros at the end. -/
def significantDigits (decimal : Decimal) : List Char :=
  trimZeros (Nat.toDigits 10 decimal.digits)

/-- Power of ten of the leading digit. -/
def leadingExponent (decimal : Decimal) : Int :=
  decimal.exponent + (digitCount decimal.digits : Int) - 1

/-- The decimal in scientific notation. -/
def scientificText (decimal : Decimal) : String :=
  match decimal.significantDigits with
  | [] => "0e0"
  | leading :: [] => s!"{leading}e{decimal.leadingExponent}"
  | leading :: rest => s!"{leading}.{String.ofList rest}e{decimal.leadingExponent}"

/-- The decimal in positional notation with at least one decimal place. -/
def pointedText (decimal : Decimal) : String :=
  match decimal.parts with
  | (whole, []) => String.ofList whole ++ ".0"
  | _ => decimal.text

/-- The decimal in the notation that the format chooses. -/
def generalText (format : GeneralFormat) (decimal : Decimal) : String :=
  if format.least ≤ decimal.leadingExponent ∧ decimal.leadingExponent ≤ format.greatest then
    decimal.pointedText
  else
    decimal.scientificText

end Decimal

/-- A double in general notation, with the fewest digits that read back as it. -/
def generalNumberText (format : GeneralFormat) (value : Float) : String :=
  let sign := if signBit value then "-" else ""
  match magnitude value with
  | .nan => "NaN"
  | .infinite => sign ++ "inf"
  | .finite 0 _ => sign ++ "0.0"
  | .finite significand exponent =>
      sign ++ (RoundingInterval.ofFinite significand exponent).shortest.generalText format

end TensorLang
