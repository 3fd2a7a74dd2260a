import TensorLang.Source
import TensorLang.Text.Ink

/-!
# Tokens

A token is a keyword, a name, a number or a single punctuation character, together with the text
that it covers and where that text stands.
-/

namespace TensorLang

/-- The reserved words. -/
inductive Keyword where
  | defWord
  | funcWord
  | varWord
  | returnWord
  deriving DecidableEq

namespace Keyword

/-- How a keyword is spelled. -/
def spelling : Keyword → String
  | .defWord => "def"
  | .funcWord => "func"
  | .varWord => "var"
  | .returnWord => "return"

/-- The keyword with a spelling. -/
def ofWord? (word : String) : Option Keyword :=
  [defWord, funcWord, varWord, returnWord].find? fun keyword => keyword.spelling == word

/-- The keyword as token listings name it. -/
def label : Keyword → String
  | .defWord => "Def"
  | .funcWord => "Func"
  | .varWord => "Var"
  | .returnWord => "Return"

end Keyword

/-- The classes of tokens. -/
inductive TokenKind where
  | keyword (keyword : Keyword)
  | identifier
  | number
  | openParen
  | closeParen
  | openBracket
  | closeBracket
  | openBrace
  | closeBrace
  | semicolon
  | comma
  | lessThan
  | greaterThan
  | equals
  | plus
  | asterisk
  | atSign
  deriving DecidableEq

namespace TokenKind

/-- The token that a punctuation character is. -/
def ofSymbol? : Char → Option TokenKind
  | '(' => some openParen
  | ')' => some closeParen
  | '[' => some openBracket
  | ']' => some closeBracket
  | '\x7b' => some openBrace
  | '\x7d' => some closeBrace
  | ';' => some semicolon
  | ',' => some comma
  | '<' => some lessThan
  | '>' => some greaterThan
  | '=' => some equals
  | '+' => some plus
  | '*' => some asterisk
  | '@' => some atSign
  | _ => none

/-- The class as token listings name it. -/
def label : TokenKind → String
  | .keyword word => "Keyword(" ++ word.label ++ ")"
  | .identifier => "Identifier"
  | .number => "NumberLiteral"
  | .openParen => "OpenParen"
  | .closeParen => "CloseParen"
  | .openBracket => "OpenBracket"
  | .closeBracket => "CloseBracket"
  | .openBrace => "OpenBrace"
  | .closeBrace => "CloseBrace"
  | .semicolon => "Semicolon"
  | .comma => "Comma"
  | .lessThan => "LessThan"
  | .greaterThan => "GreaterThan"
  | .equals => "Equals"
  | .plus => "Plus"
  | .asterisk => "Asterisk"
  | .atSign => "At"

end TokenKind

/-- A token of a source text. -/
structure Token where
  /-- The class of the token. -/
  kind : TokenKind
  /-- The text that the token covers. -/
  text : String
  /-- Where the text stands. -/
  span : Span
  deriving DecidableEq

/-- The token as token listings show it. -/
def Token.listing (token : Token) : String :=
  let span := s!"Span {braceOpen} start: {token.span.start}, end: {token.span.stop} {braceClose}"
  s!"Token {braceOpen} kind: {token.kind.label}, span: {span} {braceClose}"

end TensorLang
