import TensorLang.Proofs.Layout
import TensorLang.Proofs.Program.Blame

/-!
# Syntax errors point at the first impossible token

A syntax error stands at the first token with which no program goes on, or at the end of a text that
could go on.  The automaton of expectations decides which: what it has read can be completed, and
where it is stuck nothing helps.  Only a call of `print` in an expression is blamed on the name, one
token too early.
-/

namespace TensorLang

open Expectations

/-! ### Beginnings of programs -/

/-- Some program has tokens with these contents. -/
def Spellable (contents : List (TokenKind × String)) : Prop :=
  ∃ (source : Source) (tokens : List Token) (program : Program), source.tokens = .ok tokens ∧
    tokens.map Token.content = contents ∧ source.program = .ok program

/-- Some program starts with tokens that have these contents. -/
def Viable (contents : List (TokenKind × String)) : Prop :=
  ∃ more, Spellable (contents ++ more)

section Contents

variable {expected : List Expectation} {tokens others : List Token} {token other : Token}

private theorem advance_congr (same : other.content = token.content) :
    advance expected other = advance expected token := by
  obtain ⟨kind, text, span⟩ := token
  obtain ⟨otherKind, otherText, otherSpan⟩ := other
  obtain ⟨rfl, rfl⟩ := Prod.mk.inj same
  cases expected <;> rfl

theorem run_congr (same : others.map Token.content = tokens.map Token.content) :
    run expected others = run expected tokens := by
  induction tokens generalizing others expected with
  | nil =>
      obtain rfl := List.map_eq_nil_iff.mp same
      rfl
  | cons token tokens induction =>
      obtain ⟨other, others, rfl, head_eq, tail_eq⟩ := List.map_eq_cons_iff.mp same
      rw [run_cons, run_cons, advance_congr head_eq]
      congr 1
      funext left
      exact induction tail_eq

/-- Each token could stand in a text. -/
def Genuine (tokens : List Token) : Prop :=
  ∀ token ∈ tokens, ∃ sort, IsLexeme sort token.text.toList token.kind

theorem Genuine.append (first : Genuine tokens) (second : Genuine others) :
    Genuine (tokens ++ others) := fun token member =>
  (List.mem_append.mp member).elim (first token) (second token)

theorem Genuine.front (both : Genuine (tokens ++ others)) : Genuine tokens := fun token member =>
  both token (List.mem_append_left _ member)

theorem isLexeme_print : IsLexeme .word "print".toList .identifier := by
  rw [show "print".toList = 'p' :: ['r', 'i', 'n', 't'] by simp]
  exact .identifier (by decide) (List.all_eq_true.mp rfl)
    fun keyword => by cases keyword <;> simp [Keyword.spelling]

theorem isLexeme_sampleText (kind : TokenKind) :
    ∃ sort, IsLexeme sort kind.sampleText.toList kind := by
  cases kind with
  | keyword word => exact ⟨.word, .keyword word⟩
  | identifier =>
      rw [show (TokenKind.sampleText .identifier).toList = 'x' :: [] by simp [TokenKind.sampleText]]
      exact ⟨.word, .identifier (by decide) (by simp)
        fun keyword => by cases keyword <;> simp [Keyword.spelling]⟩
  | number =>
      rw [show (TokenKind.sampleText .number).toList = ['0'] by simp [TokenKind.sampleText]]
      exact ⟨.number, .number (by simp [isNumberPart]) (by simp) (by simp)⟩
  | _ =>
      simp only [TokenKind.sampleText, braceOpen, braceClose]
      exact ⟨.symbol, .symbol rfl⟩

private theorem genuine_completion (expected : List Expectation) :
    Genuine (completion expected) := by
  intro token member
  obtain ⟨kind, -, rfl⟩ := List.mem_map.mp member
  exact isLexeme_sampleText kind

/-- The word `print` is a name. -/
theorem Genuine.name (genuine : Genuine tokens) :
    ∀ token ∈ tokens, token.text = "print" → token.kind = .identifier := by
  intro token member print
  obtain ⟨sort, lexeme⟩ := genuine token member
  rw [print] at lexeme
  obtain rfl := lexeme.sort_eq isLexeme_print (List.prefix_refl _) (List.prefix_refl _)
  exact lexeme.kind_eq isLexeme_print

theorem spellable_iff (genuine : Genuine tokens) :
    Spellable (tokens.map Token.content) ↔ run [] tokens = some [] := by
  constructor
  · rintro ⟨source, others, program, lexes, same, parses⟩
    rw [← run_congr same, ← Program.exists_ofTokens_iff
      (Genuine.name (Source.isLexeme_of_tokens lexes))]
    rw [Source.program, lexes] at parses
    exact ⟨program, Source.accept_eq_ok_iff.mp parses⟩
  · intro reads
    obtain ⟨others, scanned, same⟩ := Token.scanFrom_spaced genuine 0
    have lexes : (Source.mk (" ".intercalate (tokens.map Token.text)) .memory).tokens =
        .ok others :=
      Source.accept_eq_ok_iff.mpr scanned
    rw [← run_congr same] at reads
    obtain ⟨program, parses⟩ := (Program.exists_ofTokens_iff
      (Genuine.name (Source.isLexeme_of_tokens lexes))).mpr reads
    refine ⟨_, others, program, lexes, same, ?_⟩
    rw [Source.program, lexes]
    exact Source.accept_eq_ok_iff.mpr parses

/-- The automaton can read what a program starts with. -/
theorem Viable.exists_run (viable : Viable (tokens.map Token.content)) :
    ∃ left, run [] tokens = some left := by
  obtain ⟨more, source, others, program, lexes, same, parses⟩ := viable
  obtain ⟨front, back, rfl, front_eq, back_eq⟩ := List.map_eq_append_iff.mp same
  have reads := (spellable_iff (Source.isLexeme_of_tokens lexes)).mp
    ⟨source, _, program, lexes, rfl, parses⟩
  rw [← run_congr front_eq]
  exact exists_run_of_append (by rw [reads, Option.isSome_some])

theorem viable_of_run {left : List Expectation} (genuine : Genuine tokens)
    (reads : run [] tokens = some left) : Viable (tokens.map Token.content) := by
  refine ⟨(completion left).map Token.content, ?_⟩
  rw [← List.map_append, spellable_iff (genuine.append (genuine_completion left)),
    run_append_of_some reads, run_completion]

end Contents

/-! ### Calls of print -/

/-- A call of some function other than `print` may come next; the opening parenthesis is given. -/
def TakesCall (contents : List (TokenKind × String)) (opening : TokenKind × String) : Prop :=
  ∃ name, name ≠ "print" ∧ Viable (contents ++ [(.identifier, name), opening])

/-- The name `print` stands in front of an opening parenthesis where an expression may call any
other function, but `print` may not be called. -/
structure PrintsWithin (before : List Token) (word opening : Token) : Prop where
  /-- The name is `print`. -/
  word_content : word.content = (.identifier, "print")
  /-- An opening parenthesis follows. -/
  opening_kind : opening.kind = .openParen
  /-- Other functions may be called. -/
  takes : TakesCall (before.map Token.content) opening.content
  /-- A program may go on with the name. -/
  viable : Viable ((before ++ [word]).map Token.content)
  /-- No program goes on with the parenthesis, too. -/
  impossible : ¬ Viable ((before ++ [word, opening]).map Token.content)

section Prints

variable {expected others left : List Expectation} {before : List Token}
variable {word other opening : Token} {closer : Closer}

/-- Where the name `print` may not be called but some other may, an operand has started. -/
theorem exists_named (word_kind : word.kind = .identifier) (prints : word.text = "print")
    (opens : opening.kind = .openParen) (reads : advance expected word = some left)
    (sticks : advance left opening = none) (other_kind : other.kind = .identifier)
    (takes : (run expected [other, opening]).isSome) :
    ∃ closer others, left = .named true closer :: others := by
  cases expected with
  | nil => simp [advance, Token.startFunction, word_kind] at reads
  | cons first rest =>
      rcases first.meet_name with rfl | ⟨closer, named⟩ | ⟨result, -, same⟩
      · have printing : left = .printing :: .statements :: rest := by
          simpa [advance, Expectation.meet, Token.startStatement, word_kind,
            prints] using reads.symm
        rw [printing] at sticks
        simp [advance, Expectation.meet, opens] at sticks
      · refine ⟨closer, rest, ?_⟩
        simpa [advance, named word word_kind, prints] using reads.symm
      · have another : advance (first :: rest) other = some left := by
          rw [← reads, advance, advance, same other other_kind, same word word_kind]
        rw [run_cons, another, Option.bind_some, run_cons, sticks] at takes
        cases takes

theorem exists_run_call (settled : Settled expected) (word_kind : word.kind = .identifier)
    (reads : advance expected word = some (.named true closer :: others))
    (other_kind : other.kind = .identifier) (differs : other.text ≠ "print")
    (opens : opening.kind = .openParen) : ∃ left, run expected [other, opening] = some left := by
  cases expected with
  | nil => simp [advance, Token.startFunction, word_kind] at reads
  | cons first rest =>
      rcases first.meet_name with rfl | ⟨closer, named⟩ | ⟨result, unnamed, same⟩
      · simp only [advance, Expectation.meet, Token.startStatement, word_kind] at reads
        split at reads <;> cases reads
      · refine ⟨.argumentList :: .operators closer :: rest, ?_⟩
        have named_other : advance (first :: rest) other = some (.named false closer :: rest) := by
          rw [advance, named other other_kind, beq_eq_false_iff_ne.mpr differs]
          rfl
        rw [run_cons, named_other]
        simp [advance, Expectation.meet, opens]
      · rw [advance, same word word_kind] at reads
        obtain ⟨new, new_eq, left_eq⟩ := Option.map_eq_some_iff.mp reads
        cases new with
        | nil =>
            have member : .named true closer ∈ rest := by
              rw [show rest = _ from left_eq]
              exact List.mem_cons_self
            exact (settled _ member trivial).elim
        | cons head tail =>
            obtain ⟨rfl, -⟩ := List.cons.inj left_eq
            exact (unnamed _ new_eq _ List.mem_cons_self trivial).elim

theorem PrintsWithin.exists_run (genuine : Genuine (before ++ [word, opening]))
    (prints : PrintsWithin before word opening) :
    ∃ closer others, run [] (before ++ [word]) = some (.named true closer :: others) := by
  obtain ⟨left, left_eq⟩ := prints.viable.exists_run
  obtain ⟨word_kind, word_text⟩ := Prod.mk.inj prints.word_content
  obtain ⟨expected, expected_eq⟩ := exists_run_of_append (by rw [left_eq, Option.isSome_some])
  have reads : advance expected word = some left := by
    simpa [run_append_of_some expected_eq] using left_eq
  have sticks : advance left opening = none := by
    refine Option.eq_none_iff_forall_ne_some.mpr fun after more => prints.impossible ?_
    have both : run [] (before ++ [word, opening]) = some after := by
      simp [run_append_of_some expected_eq, reads, more]
    exact viable_of_run genuine both
  obtain ⟨name, differs, viable⟩ := prints.takes
  have called : Viable ((before ++ [⟨.identifier, name, ⟨0, 0⟩⟩, opening]).map Token.content) := by
    rw [List.map_append]
    exact viable
  obtain ⟨after, after_eq⟩ := called.exists_run
  rw [run_append_of_some expected_eq] at after_eq
  have takes : (run expected [⟨.identifier, name, ⟨0, 0⟩⟩, opening]).isSome := by
    rw [after_eq, Option.isSome_some]
  obtain ⟨closer, others, rfl⟩ :=
    exists_named word_kind word_text prints.opening_kind reads sticks rfl takes
  exact ⟨closer, others, left_eq⟩

end Prints

/-- Where a text that is no program goes wrong; `none` is its end. -/
inductive Faulty (tokens : List Token) : Option Nat → Prop where
  /-- The text ends within what could become a program. -/
  | ends (viable : Viable (tokens.map Token.content))
      (unfinished : ¬ Spellable (tokens.map Token.content)) : Faulty tokens none
  /-- No program goes on with the token, but some with what is before it. -/
  | token {before after : List Token} {token : Token} (split : tokens = before ++ token :: after)
      (viable : Viable (before.map Token.content))
      (impossible : ¬ Viable ((before ++ [token]).map Token.content))
      (fair : ¬ ∃ front word, before = front ++ [word] ∧ PrintsWithin front word token) :
      Faulty tokens (some token.span.start)
  /-- An expression calls `print`. -/
  | print {before after : List Token} {word opening : Token}
      (split : tokens = before ++ word :: opening :: after)
      (prints : PrintsWithin before word opening) : Faulty tokens (some word.span.start)

section Faults

variable {tokens : List Token}

/-- A token is to blame where the automaton is stuck at it, unless it calls `print`. -/
theorem faulty_token {before after : List Token} {token : Token} {left : List Expectation}
    (genuine : Genuine tokens) (split : tokens = before ++ token :: after)
    (reads : run [] before = some left) (sticks : advance left token = none)
    (fair : ∀ closer others, left = .named true closer :: others → token.kind ≠ .openParen) :
    Faulty tokens (some token.span.start) := by
  subst split
  refine .token rfl (viable_of_run genuine.front reads) (fun viable => ?_) ?_
  · obtain ⟨final, final_eq⟩ := viable.exists_run
    simp [run_append_of_some reads, sticks] at final_eq
  · rintro ⟨front, word, rfl, prints⟩
    have both : Genuine (front ++ [word, token] ++ after) := by simpa using genuine
    obtain ⟨closer, others, named⟩ := prints.exists_run both.front
    exact fair closer others (Option.some.inj (reads.symm.trans named)) prints.opening_kind

private theorem printsWithin_of_run {before : List Token} {word opening : Token} {closer : Closer}
    {others : List Expectation} (genuine : Genuine (before ++ [word, opening]))
    (name : word.kind = .identifier) (prints : word.text = "print")
    (opens : opening.kind = .openParen)
    (reads : run [] (before ++ [word]) = some (.named true closer :: others)) :
    PrintsWithin before word opening where
  word_content := Prod.ext name prints
  opening_kind := opens
  takes := by
    obtain ⟨expected, expected_eq⟩ := exists_run_of_append (by rw [reads, Option.isSome_some])
    have advances : advance expected word = some (.named true closer :: others) := by
      simpa [run_append_of_some expected_eq] using reads
    have settled : Settled expected := Settled.run (by simp [Settled]) expected_eq
    obtain ⟨sort, lexeme⟩ := isLexeme_sampleText .identifier
    obtain ⟨left, called⟩ :
      ∃ left, run expected [TokenKind.sample .identifier, opening] = some left :=
      exists_run_call settled name advances rfl (by decide) opens
    have more : Genuine (before ++ [TokenKind.sample .identifier, opening]) := by
      refine genuine.front.append (List.forall_mem_cons.mpr ⟨⟨sort, lexeme⟩, ?_⟩)
      exact List.forall_mem_singleton.mpr (genuine opening (by simp))
    have viable := viable_of_run more ((run_append_of_some expected_eq).trans called)
    rw [List.map_append] at viable
    exact ⟨_, by decide, viable⟩
  viable := by
    rw [List.append_cons] at genuine
    exact viable_of_run genuine.front reads
  impossible := fun viable => by
    obtain ⟨final, final_eq⟩ := viable.exists_run
    rw [List.append_cons, run_append_of_some reads] at final_eq
    simp [advance, Expectation.meet, opens] at final_eq

theorem Blames.faulty {rejection : Rejection} (genuine : Genuine tokens)
    (blames : Blames [] tokens rejection) : Faulty tokens rejection.position := by
  cases blames with
  | ends reads unfinished =>
      refine .ends (viable_of_run genuine reads) fun spellable => unfinished ?_
      exact Option.some.inj (reads.symm.trans ((spellable_iff genuine).mp spellable))
  | token before split reads sticks fair =>
      refine faulty_token genuine split reads (by rw [advance, sticks, Option.map_none]) ?_
      exact fun closer others left_eq opens => fair ⟨⟨closer, (List.cons.inj left_eq).1⟩, opens⟩
  | function before split reads sticks =>
      exact faulty_token genuine split reads sticks (by simp)
  | @print before after word opening closer others _ split name prints opens reads =>
      have both : Genuine (before ++ [word, opening] ++ after) := by
        rw [List.append_assoc]
        exact split ▸ genuine
      exact .print split (printsWithin_of_run both.front name prints opens reads)

theorem Faulty.position {position : Option Nat} (faulty : Faulty tokens position) :
    position = none ∨ ∃ token ∈ tokens, position = some token.span.start := by
  cases faulty with
  | ends => exact .inl rfl
  | token split => exact .inr ⟨_, by simp [split], rfl⟩
  | print split => exact .inr ⟨_, by simp [split], rfl⟩

/-- Syntax errors point at the first impossible token.  Where a text has tokens but is no program,
the error stands at the first token with which no program goes on, or at the end of the text if some
program goes on there; the one exception is a call of `print` in an expression, where it stands at
the name. -/
theorem Source.program_error_at_first_impossible_token {source : Source} {tokens : List Token}
    {failure : Failure} (lexes : source.tokens = .ok tokens)
    (refused : source.program = .error failure) :
    ∃ position message location, Faulty tokens position ∧
      source.Shows (position.getD source.length) location ∧
      failure = .error ⟨.malformed message, some location⟩ := by
  have genuine : Genuine tokens := isLexeme_of_tokens lexes
  rw [program, lexes] at refused
  change source.accept (Program.ofTokens tokens) = .error failure at refused
  cases parsed : Program.ofTokens tokens with
  | ok program =>
      rw [parsed] at refused
      cases refused
  | error rejection =>
      have faulty := (Program.blames_of_error genuine.name parsed).faulty genuine
      have located : ∃ location,
          source.location? (rejection.position.getD source.length) = some location := by
        rcases faulty.position with none | ⟨token, member, start_eq⟩
        · rw [none]
          exact source.exists_location?_length
        · rw [start_eq]
          exact exists_location? ((source.delivers_tokens.accepted lexes).2 token member)
      obtain ⟨location, location_eq⟩ := located
      refine ⟨rejection.position, rejection.message, location, faulty,
        shows_iff.mpr location_eq, ?_⟩
      rw [parsed, accept, location_eq] at refused
      cases refused
      rfl

/-- Declares a variable without a semicolon. -/
def Source.unendedDeclaration : Source where
  contents := "def twice(x) \x7b\n  var y = x + x\n  return y;\n\x7d\n"
  origin := .memory

theorem Source.program_error_at_first_impossible_token_unendedDeclaration :
    ∃ tokens failure, unendedDeclaration.tokens = .ok tokens ∧
      unendedDeclaration.program = .error failure ∧
      ∃ position message location, Faulty tokens position ∧
        unendedDeclaration.Shows (position.getD unendedDeclaration.length) location ∧
        failure = .error ⟨.malformed message, some location⟩ := by
  have lexed : unendedDeclaration.tokens.toOption.isSome = true := by decide +kernel
  obtain ⟨tokens, lexes⟩ := Option.isSome_iff_exists.mp lexed
  have lexes := Except.toOption_eq_some_iff.mp lexes
  have unparsed : unendedDeclaration.program.toOption.isSome = false := by decide +kernel
  cases refused : unendedDeclaration.program with
  | ok program =>
      rw [refused] at unparsed
      cases unparsed
  | error failure =>
      exact ⟨tokens, failure, lexes, rfl,
        program_error_at_first_impossible_token lexes refused⟩

end Faults

end TensorLang
