import TensorLang.Program.Parser

/-!
# What a text may go on with

The syntax as an automaton that reads one token after the other and keeps a stack of expectations,
what comes next on top.  An empty stack expects a function or the end of the text.  The automaton
gets stuck at the first token that nothing can make sense of: whatever it has come to expect can be
written down, so every text that it has read so far can be completed.
-/

namespace TensorLang

/-- What ends an expression. -/
inductive Closer where
  /-- The semicolon of a statement. -/
  | semicolon
  /-- The closing parenthesis of a group or of a print statement. -/
  | group
  /-- The closing parenthesis of a call, or a comma and a further argument. -/
  | arguments

/-- What may come next. -/
inductive Expectation where
  /-- A token of a class. -/
  | token (kind : TokenKind)
  /-- A first parameter, or the closing parenthesis. -/
  | parameters
  /-- A comma and a further parameter, or the closing parenthesis. -/
  | furtherParameters
  /-- A statement, or the closing brace. -/
  | statements
  /-- The shape or the initial value of a declared variable. -/
  | declared
  /-- A dimension. -/
  | dimension
  /-- A comma and a further dimension, or the end of the shape. -/
  | furtherDimensions
  /-- The value that a function returns, or a semicolon. -/
  | returned
  /-- An operand, and what follows it up to the end of the expression. -/
  | operand (closer : Closer)
  /-- An operator and a further operand, or the end of the expression. -/
  | operators (closer : Closer)
  /-- The same after a name, which may be called unless it is `print`. -/
  | named (isPrint : Bool) (closer : Closer)
  /-- The same after `print` at the start of a statement, where its argument may follow. -/
  | printing
  /-- A first argument, or the closing parenthesis. -/
  | argumentList
  /-- A literal. -/
  | literal
  /-- A comma and a further element of a literal, or the closing bracket. -/
  | furtherElements

/-- What is expected after the end of an expression, if a token of the class is one. -/
def Closer.close : Closer → TokenKind → Option (List Expectation)
  | .semicolon, .semicolon => some []
  | .group, .closeParen => some []
  | .arguments, .closeParen => some []
  | .arguments, .comma => some [.operand .arguments]
  | _, _ => none

/-- What is expected after an operator or the end of an expression. -/
def Closer.operate (closer : Closer) : TokenKind → Option (List Expectation)
  | .plus | .asterisk | .atSign => some [.operand closer]
  | kind => closer.close kind

/-- What is expected after the first token of a literal. -/
def Token.startLiteral (token : Token) : Option (List Expectation) :=
  match token.kind with
  | .number => if (parseDouble? token.text).isSome then some [] else none
  | .openBracket => some [.literal, .furtherElements]
  | _ => none

/-- What is expected after the first token of an operand. -/
def Token.startOperand (token : Token) (closer : Closer) : Option (List Expectation) :=
  match token.kind with
  | .openParen => some [.operand .group, .operators closer]
  | .identifier => some [.named (token.text == "print") closer]
  | _ => token.startLiteral.map (· ++ [.operators closer])

/-- What is expected after the first token of a statement, or after the closing brace. -/
def Token.startStatement (token : Token) : Option (List Expectation) :=
  match token.kind with
  | .closeBrace => some []
  | .keyword .varWord => some [.token .identifier, .declared, .statements]
  | .keyword .returnWord => some [.returned, .statements]
  | .identifier =>
      if token.text = "print" then some [.printing, .statements]
      else some [.named false .semicolon, .statements]
  | _ => (token.startOperand .semicolon).map (· ++ [.statements])

/-- What is expected after the first token of a function. -/
def Token.startFunction (token : Token) : Option (List Expectation) :=
  match token.kind with
  | .keyword .defWord | .keyword .funcWord =>
      some [.token .identifier, .token .openParen, .parameters, .token .openBrace, .statements]
  | _ => none

/-- What a token that meets an expectation leaves to expect in its place. -/
def Expectation.meet (expectation : Expectation) (token : Token) : Option (List Expectation) :=
  match expectation, token.kind with
  | .token kind, found => if found = kind then some [] else none
  | .parameters, .closeParen => some []
  | .parameters, .identifier => some [.furtherParameters]
  | .parameters, _ => none
  | .furtherParameters, .closeParen => some []
  | .furtherParameters, .comma => some [.token .identifier, .furtherParameters]
  | .furtherParameters, _ => none
  | .statements, _ => token.startStatement
  | .declared, .lessThan =>
      some [.dimension, .furtherDimensions, .token .equals, .operand .semicolon]
  | .declared, .equals => some [.operand .semicolon]
  | .declared, _ => none
  | .dimension, .number =>
      if (parseNatural? countBound token.text).isSome then some [] else none
  | .dimension, _ => none
  | .furtherDimensions, .greaterThan => some []
  | .furtherDimensions, .comma => some [.dimension, .furtherDimensions]
  | .furtherDimensions, _ => none
  | .returned, .semicolon => some []
  | .returned, _ => token.startOperand .semicolon
  | .operand closer, _ => token.startOperand closer
  | .operators closer, kind => closer.operate kind
  | .named isPrint closer, .openParen =>
      if isPrint then none else some [.argumentList, .operators closer]
  | .named _ closer, kind => closer.operate kind
  | .printing, .openParen => some [.operand .group, .token .semicolon]
  | .printing, kind => Closer.semicolon.operate kind
  | .argumentList, .closeParen => some []
  | .argumentList, _ => token.startOperand .arguments
  | .literal, _ => token.startLiteral
  | .furtherElements, .closeBracket => some []
  | .furtherElements, .comma => some [.literal, .furtherElements]
  | .furtherElements, _ => none

/-- Whether a call of `print` in an expression is all that is wrong with the token. -/
def Expectation.BarsCall (expectation : Expectation) (token : Token) : Prop :=
  (∃ closer, expectation = .named true closer) ∧ token.kind = .openParen

namespace Expectations

/-- What is expected after one more token. -/
def advance : List Expectation → Token → Option (List Expectation)
  | [], token => token.startFunction
  | first :: others, token => (first.meet token).map (· ++ others)

/-- What is expected after more tokens, if they can all follow. -/
def run (expected : List Expectation) (tokens : List Token) : Option (List Expectation) :=
  tokens.foldlM advance expected

variable {expected middle : List Expectation} {front back : List Token} {token : Token}

@[simp]
theorem run_nil : run expected [] = some expected := rfl

@[simp]
theorem run_cons : run expected (token :: back) = (advance expected token).bind (run · back) := rfl

theorem run_append :
    run expected (front ++ back) = (run expected front).bind (run · back) :=
  List.foldlM_append

theorem run_append_of_some (front_eq : run expected front = some middle) :
    run expected (front ++ back) = run middle back := by
  rw [run_append, front_eq, Option.bind_some]

/-- What has been read of a text that can be read can be read. -/
theorem exists_run_of_append (reads : (run expected (front ++ back)).isSome) :
    ∃ middle, run expected front = some middle := by
  rw [run_append] at reads
  exact Option.isSome_iff_exists.mp (Option.isSome_of_isSome_bind reads)

end Expectations

/-! ### Completions -/

/-- A text of a token of the class. -/
def TokenKind.sampleText : TokenKind → String
  | .keyword word => word.spelling
  | .identifier => "x"
  | .number => "0"
  | .openParen => "("
  | .closeParen => ")"
  | .openBracket => "["
  | .closeBracket => "]"
  | .openBrace => braceOpen
  | .closeBrace => braceClose
  | .semicolon => ";"
  | .comma => ","
  | .lessThan => "<"
  | .greaterThan => ">"
  | .equals => "="
  | .plus => "+"
  | .asterisk => "*"
  | .atSign => "@"

/-- A token of the class, at the start of some text. -/
def TokenKind.sample (kind : TokenKind) : Token := ⟨kind, kind.sampleText, ⟨0, 0⟩⟩

/-- The class of the token that ends an expression. -/
def Closer.kind : Closer → TokenKind
  | .semicolon => .semicolon
  | .group | .arguments => .closeParen

/-- The classes of tokens that meet an expectation and leave nothing more to expect. -/
def Expectation.completion : Expectation → List TokenKind
  | .token kind => [kind]
  | .parameters | .furtherParameters | .argumentList => [.closeParen]
  | .statements => [.closeBrace]
  | .declared => [.equals, .number, .semicolon]
  | .dimension | .literal => [.number]
  | .furtherDimensions => [.greaterThan]
  | .furtherElements => [.closeBracket]
  | .returned | .printing => [.semicolon]
  | .operand closer => [.number, closer.kind]
  | .operators closer | .named _ closer => [closer.kind]

namespace Expectations

/-- Tokens that meet all that is expected. -/
def completion (expected : List Expectation) : List Token :=
  (expected.flatMap Expectation.completion).map TokenKind.sample

private theorem run_completion_cons (first : Expectation) (others : List Expectation) :
    run (first :: others) (first.completion.map TokenKind.sample) = some others := by
  cases first with
  | token kind => simp [Expectation.completion, advance, Expectation.meet, TokenKind.sample]
  | operand closer | operators closer | named _ closer => cases closer <;> rfl
  | _ => rfl

/-- Whatever is expected can be written down. -/
theorem run_completion (expected : List Expectation) :
    run expected (completion expected) = some [] := by
  induction expected with
  | nil => rfl
  | cons first others induction =>
      rw [completion, List.flatMap_cons, List.map_append,
        run_append_of_some (run_completion_cons first others)]
      exact induction

end Expectations

/-! ### Names -/

/-- Whether an operand that starts with a name has just been read. -/
def Expectation.AfterName : Expectation → Prop
  | .named _ _ => True
  | _ => False

/-- A name has at most just been read, and not before what is expected later. -/
def Expectations.Settled (expected : List Expectation) : Prop :=
  ∀ later ∈ expected.tail, ¬ later.AfterName

namespace Expectations

variable {first : Expectation} {new others expected left : List Expectation} {token : Token}

theorem Settled.append (settled : Settled new) (later : ∀ other ∈ others, ¬ other.AfterName) :
    Settled (new ++ others) := by
  cases new with
  | nil => exact fun other member => later other (List.mem_of_mem_tail member)
  | cons head tail =>
      intro other member
      exact (List.mem_append.mp member).elim (settled other) (later other)

theorem settled_startLiteral (token : Token) : ∀ new ∈ token.startLiteral, Settled new := by
  unfold Token.startLiteral
  split
  · split <;> simp [Settled]
  · simp [Settled, Expectation.AfterName]
  · simp

theorem settled_startOperand (token : Token) (closer : Closer) :
    ∀ new ∈ token.startOperand closer, Settled new := by
  unfold Token.startOperand
  split
  · simp [Settled, Expectation.AfterName]
  · simp [Settled]
  · intro new reads
    obtain ⟨literal, literal_eq, rfl⟩ := Option.map_eq_some_iff.mp reads
    exact (settled_startLiteral token literal literal_eq).append (by simp [Expectation.AfterName])

private theorem settled_startStatement (token : Token) :
    ∀ new ∈ token.startStatement, Settled new := by
  unfold Token.startStatement
  split
  · simp [Settled]
  · simp [Settled, Expectation.AfterName]
  · simp [Settled, Expectation.AfterName]
  · split <;> simp [Settled, Expectation.AfterName]
  · intro new reads
    obtain ⟨operand, operand_eq, rfl⟩ := Option.map_eq_some_iff.mp reads
    exact (settled_startOperand token .semicolon operand operand_eq).append
      (by simp [Expectation.AfterName])

private theorem settled_operate (closer : Closer) (kind : TokenKind) :
    ∀ new ∈ closer.operate kind, Settled new := by
  unfold Closer.operate
  split
  · simp [Settled]
  · simp [Settled]
  · simp [Settled]
  · unfold Closer.close
    split <;> simp [Settled]

private theorem settled_meet (first : Expectation) (token : Token) :
    ∀ new ∈ first.meet token, Settled new := by
  unfold Expectation.meet
  split
  -- What a token starts has been looked at; all else is a list that can be read off.
  all_goals
    first
    | exact settled_startStatement token
    | exact settled_startOperand token _
    | exact settled_startLiteral token
    | exact settled_operate _ _
    | simp [Settled, Expectation.AfterName]

theorem Settled.advance (settled : Settled expected) (reads : advance expected token = some left) :
    Settled left := by
  cases expected with
  | nil =>
      rw [Expectations.advance, Token.startFunction] at reads
      split at reads <;> cases reads <;> simp [Settled, Expectation.AfterName]
  | cons first others =>
      obtain ⟨new, new_eq, rfl⟩ := Option.map_eq_some_iff.mp reads
      exact (settled_meet first token new new_eq).append settled

theorem Settled.run {tokens : List Token} (settled : Settled expected)
    (reads : run expected tokens = some left) : Settled left := by
  induction tokens generalizing expected with
  | nil =>
      obtain rfl := Option.some.inj reads
      exact settled
  | cons token tokens induction =>
      obtain ⟨middle, middle_eq, later⟩ := Option.bind_eq_some_iff.mp reads
      exact induction (settled.advance middle_eq) later

end Expectations

/-- What a name leaves to expect.  Only where an operand may start does it matter which name it is,
and at the start of a statement. -/
theorem Expectation.meet_name (expectation : Expectation) :
    expectation = .statements ∨
      (∃ closer, ∀ token : Token, token.kind = .identifier →
        expectation.meet token = some [.named (token.text == "print") closer]) ∨
      ∃ result, (∀ left ∈ result, ∀ expected ∈ left, ¬ expected.AfterName) ∧
        ∀ token : Token, token.kind = .identifier → expectation.meet token = result := by
  cases expectation with
  | statements => exact .inl rfl
  | token kind =>
      refine .inr (.inr ⟨if .identifier = kind then some [] else none, ?_, fun token name => ?_⟩)
      · split <;> simp
      · rw [meet, name]
  | parameters =>
      refine .inr (.inr ⟨some [.furtherParameters], by simp [AfterName], fun token name => ?_⟩)
      simp [meet, name]
  | returned =>
      exact .inr (.inl ⟨.semicolon, fun token name => by simp [meet, Token.startOperand, name]⟩)
  | operand closer =>
      exact .inr (.inl ⟨closer, fun token name => by simp [meet, Token.startOperand, name]⟩)
  | argumentList =>
      exact .inr (.inl ⟨.arguments, fun token name => by simp [meet, Token.startOperand, name]⟩)
  | printing | operators closer | named _ closer =>
      refine .inr (.inr ⟨none, by simp, fun token name => ?_⟩)
      simp [meet, name, Closer.operate, Closer.close]
  | _ =>
      refine .inr (.inr ⟨none, by simp, fun token name => ?_⟩)
      simp [meet, name, Token.startLiteral]

end TensorLang
