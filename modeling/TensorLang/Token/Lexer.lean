import TensorLang.Error
import TensorLang.Text.Blank
import TensorLang.Token

/-!
# Lexing

A source text is cut into tokens from the left.  Blanks and comments, from `#` or `//` to the end
of the line, are skipped.  At any other place the longest lexeme of the class that the first
characters select is cut off.
-/

namespace TensorLang

/-- Whether a word may start with the character. -/
def isWordStart (char : Char) : Bool := char.isAlpha || char == '_'

/-- Whether a word may go on with the character. -/
def isWordPart (char : Char) : Bool := char.isAlphanum || char == '_'

/-- Whether a number may go on with the character. -/
def isNumberPart (char : Char) : Bool := char.isDigit || char == '.'

/-- Whether a number starts here: with a digit, or with a point that a digit follows. -/
def startsNumber (first : Char) (rest : List Char) : Bool :=
  first.isDigit || (first == '.' && rest.head?.any Char.isDigit)

/-- Whether a comment starts here. -/
def startsComment (first : Char) (rest : List Char) : Bool :=
  first == '#' || (first == '/' && rest.head? == some '/')

/-- The characters of a comment after its first one. -/
def commentTail (rest : List Char) : List Char := rest.takeWhile (· ≠ '\n')

/-- What follows a comment. -/
def afterComment (rest : List Char) : List Char := rest.dropWhile (· ≠ '\n')

/-- The front of a text, cut off as one token. -/
structure Lexeme where
  /-- The class of the token. -/
  kind : TokenKind
  /-- The characters of the token. -/
  chars : List Char
  /-- What follows the token. -/
  rest : List Char

namespace Lexeme

/-- The longest lexeme at the front of `first :: rest`, or why there is none. -/
def cut (first : Char) (rest : List Char) : Except String Lexeme :=
  if startsNumber first rest then
    let tail := rest.takeWhile isNumberPart
    if 1 < (first :: tail).count '.' then
      .error "number literal has more than one decimal point"
    else
      .ok ⟨.number, first :: tail, rest.dropWhile isNumberPart⟩
  else if isWordStart first then
    let word := first :: rest.takeWhile isWordPart
    let kind :=
      match Keyword.ofWord? (String.ofList word) with
      | some keyword => .keyword keyword
      | none => .identifier
    .ok ⟨kind, word, rest.dropWhile isWordPart⟩
  else
    match TokenKind.ofSymbol? first with
    | some kind => .ok ⟨kind, [first], rest⟩
    | none => .error s!"unexpected character in stream: {quoteName first.toString}"

/-- A lexeme and what follows it make up the text, and the lexeme starts with its first
character. -/
theorem cut_eq_ok {first : Char} {rest : List Char} {lexeme : Lexeme}
    (cut_eq : cut first rest = .ok lexeme) :
    ∃ tail, lexeme.chars = first :: tail ∧ rest = tail ++ lexeme.rest := by
  unfold cut at cut_eq
  split at cut_eq
  · dsimp only at cut_eq
    split at cut_eq
    · cases cut_eq
    · cases cut_eq
      exact ⟨_, rfl, List.takeWhile_append_dropWhile.symm⟩
  · split at cut_eq
    · cases cut_eq
      exact ⟨_, rfl, List.takeWhile_append_dropWhile.symm⟩
    · split at cut_eq
      · cases cut_eq
        exact ⟨[], rfl, rfl⟩
      · cases cut_eq

theorem length_rest_le_of_cut {first : Char} {rest : List Char} {lexeme : Lexeme}
    (cut_eq : cut first rest = .ok lexeme) : lexeme.rest.length ≤ rest.length := by
  obtain ⟨tail, -, rest_eq⟩ := cut_eq_ok cut_eq
  simp [rest_eq]

end Lexeme

theorem length_afterComment_le (rest : List Char) : (afterComment rest).length ≤ rest.length :=
  (List.dropWhile_suffix _).length_le

/-- The tokens of a text whose first character stands at `position`. -/
def Token.scanFrom (position : Nat) (chars : List Char) : Except Rejection (List Token) :=
  match chars with
  | [] => .ok []
  | first :: rest =>
      if isBlank first then
        scanFrom (position + first.utf8Size) rest
      else if startsComment first rest then
        scanFrom (position + byteCount (first :: commentTail rest)) (afterComment rest)
      else
        match _cut : Lexeme.cut first rest with
        | .error message => .error ⟨some position, message⟩
        | .ok lexeme => do
            let stop := position + byteCount lexeme.chars
            let tokens ← scanFrom stop lexeme.rest
            return ⟨lexeme.kind, String.ofList lexeme.chars, ⟨position, stop⟩⟩ :: tokens
termination_by chars.length
decreasing_by
  · simp
  · exact Nat.lt_succ_of_le (length_afterComment_le rest)
  · exact Nat.lt_succ_of_le (Lexeme.length_rest_le_of_cut (by assumption))

/-- All tokens of a text in order. -/
def Token.scan (text : String) : Except Rejection (List Token) :=
  scanFrom 0 text.toList

/-- The tokens of a source text. -/
def Source.tokens (source : Source) : Outcome (List Token) :=
  source.accept (Token.scan source.contents)

end TensorLang
