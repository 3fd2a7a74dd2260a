import TensorLang.Text.Ink
import TensorLang.Text.Printable

/-!
# Quoted text

Text is quoted between double quotes.  Quotes, backslashes and the common control characters get
a backslash, and every other unprintable character its code point in hexadecimal.
-/

namespace TensorLang

/-- The hexadecimal escape of a character: its code point without leading zeros. -/
def escapeCode (char : Char) : String :=
  "\\u" ++ braceOpen ++ String.ofList (Nat.toDigits 16 char.toNat) ++ braceClose

/-- How a character is written inside double quotes. -/
def escapeChar (char : Char) : String :=
  match char with
  | '\x00' => "\\0"
  | '\t' => "\\t"
  | '\r' => "\\r"
  | '\n' => "\\n"
  | '\\' => "\\\\"
  | '"' => "\\\""
  | _ => if isUnprintable char then escapeCode char else char.toString

/-- The text between double quotes, with its special characters escaped. -/
def quote (text : String) : String :=
  "\"" ++ String.join (text.toList.map escapeChar) ++ "\""

end TensorLang
