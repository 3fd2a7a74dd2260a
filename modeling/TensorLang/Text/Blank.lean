/-!
# Blank characters

The characters that separate tokens: those with the Unicode property `White_Space`.
-/

namespace TensorLang

/-- Code points with the Unicode property `White_Space`. -/
def isBlankCode (code : Nat) : Bool :=
  (9 ≤ code && code ≤ 13) || code == 0x20 || code == 0x85 || code == 0xA0 || code == 0x1680 ||
    (0x2000 ≤ code && code ≤ 0x200A) || code == 0x2028 || code == 0x2029 || code == 0x202F ||
    code == 0x205F || code == 0x3000

/-- Whether a character only separates tokens. -/
def isBlank (char : Char) : Bool := isBlankCode char.toNat

end TensorLang
