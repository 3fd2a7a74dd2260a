import TensorLang.Proofs.AlikeCompilation
import TensorLang.Proofs.Dataflow.AlikePrograms
import TensorLang.Proofs.Dataflow.Passes
import TensorLang.Proofs.Program.Lexing

/-!
# Layout is irrelevant

Blanks, comments and line breaks only separate tokens.  Two texts with the same tokens are parsed
into programs that differ only in where their parts stand, and from there on no decision depends on
a place: both are shown, lowered and run alike, or refused for the same cause.  A single blank is
enough to keep tokens apart.
-/

namespace TensorLang

/-- What a token is, wherever it stands: its class and its text. -/
def Token.content (token : Token) : TokenKind × String := (token.kind, token.text)

/-! ### Lexemes between blanks -/

section Lexemes

variable {sort : LexemeClass} {chars rest : List Char} {kind : TokenKind}

private theorem IsLexeme.blank_notMem (lexeme : IsLexeme sort chars kind) : ' ' ∉ chars := by
  intro member
  cases sort with
  | word => exact absurd (lexeme.word_parts ' ' member) (by decide)
  | number =>
      cases lexeme with
      | number parts => exact absurd (parts ' ' member) (by decide)
  | symbol =>
      cases lexeme with
      | symbol found =>
          obtain rfl := List.mem_singleton.mp member
          cases found

theorem IsLexeme.isLongest (lexeme : IsLexeme sort chars kind)
    (ends : ∀ next ∈ rest.head?, next = ' ') : IsLongestLexeme chars rest kind := by
  refine ⟨⟨sort, lexeme, longest_of_ends ?_⟩, fun _ point => absurd (ends '.' point) (by decide)⟩
  intro next follows longer other another
  obtain rfl := ends next follows
  exact another.blank_notMem

/-- Lexemes with blanks between them are read one after the other. -/
theorem Token.scanFrom_spaced {tokens : List Token}
    (lexemes : ∀ token ∈ tokens, ∃ sort, IsLexeme sort token.text.toList token.kind)
    (position : Nat) : ∃ others,
      Token.scanFrom position (" ".intercalate (tokens.map Token.text)).toList = .ok others ∧
      others.map Token.content = tokens.map Token.content := by
  induction tokens generalizing position with
  | nil =>
      exact ⟨[], by rw [List.map_nil, String.intercalate_nil, String.toList_empty, scanFrom], rfl⟩
  | cons token tokens induction =>
      obtain ⟨⟨sort, lexeme⟩, later⟩ := List.forall_mem_cons.mp lexemes
      cases tokens with
      | nil =>
          have longest : IsLongestLexeme token.text.toList [] token.kind :=
            lexeme.isLongest (by simp)
          rw [List.map_singleton, String.intercalate_singleton, ← List.append_nil token.text.toList,
            scanFrom_longest longest, scanFrom, String.ofList_toList]
          exact ⟨_, rfl, rfl⟩
      | cons next tokens =>
          have text_eq : (" ".intercalate ((token :: next :: tokens).map Token.text)).toList =
              token.text.toList ++
                ([' '] ++ (" ".intercalate ((next :: tokens).map Token.text)).toList) := by
            rw [List.map_cons, List.map_cons, String.intercalate_cons_cons, String.toList_append,
              String.toList_append, List.append_assoc]
            rfl
          have blank : Skipped [' '] (" ".intercalate ((next :: tokens).map Token.text)).toList :=
            .blank (by decide) .nil
          have longest : IsLongestLexeme token.text.toList
              ([' '] ++ (" ".intercalate ((next :: tokens).map Token.text)).toList) token.kind :=
            lexeme.isLongest fun char found => (Option.some.inj found).symm
          obtain ⟨others, scanned, content_eq⟩ := induction later
            (position + byteCount token.text.toList + byteCount [' '])
          rw [text_eq, scanFrom_longest longest, scanFrom_skipped blank, scanned,
            String.ofList_toList]
          refine ⟨_, rfl, ?_⟩
          rw [List.map_cons, content_eq, List.map_cons]
          rfl

/-- Each token of a text is a lexeme. -/
theorem Source.isLexeme_of_tokens {source : Source} {tokens : List Token}
    (lexes : source.tokens = .ok tokens) :
    ∀ token ∈ tokens, ∃ sort, IsLexeme sort token.text.toList token.kind := by
  intro token member
  have tiles := Token.scan_eq_ok_iff.mp (accept_eq_ok_iff.mp lexes)
  obtain ⟨covered, rest, -, text_eq, ⟨sort, lexeme, -⟩, -⟩ := tiles.exact token member
  rw [text_eq, String.toList_ofList]
  exact ⟨sort, lexeme⟩

end Lexemes

/-! ### Places -/

section Places

variable {excused : Prop} {left right : Source} {tokens others : List Token}

private theorem Source.alike_tokens (lexes : left.tokens = .ok tokens)
    (another : right.tokens = .ok others)
    (same : others.map Token.content = tokens.map Token.content) :
    List.Forall₂ (Token.Alike (left.Places right)) tokens others := by
  have first := (left.delivers_tokens.accepted lexes).2
  have second := (right.delivers_tokens.accepted another).2
  clear lexes another
  induction tokens generalizing others with
  | nil =>
      obtain rfl := List.map_eq_nil_iff.mp same
      exact .nil
  | cons token tokens induction =>
      obtain ⟨other, others, rfl, head_eq, tail_eq⟩ := List.map_eq_cons_iff.mp same
      rw [List.forall_mem_cons] at first second
      obtain ⟨kind_eq, text_eq⟩ := Prod.mk.inj head_eq
      refine .cons ⟨kind_eq, text_eq, ?_⟩ (induction tail_eq first.2 second.2)
      exact ⟨exists_location? first.1, exists_location? second.1⟩

/-- The end of a text has a location. -/
theorem Source.exists_location?_length (source : Source) :
    ∃ location, source.location? source.length = some location :=
  exists_location? ⟨source.contents.toList, [], (List.append_nil _).symm, rfl⟩

private theorem Source.outcomes_accept {α β : Type} {values : α → β → Prop}
    {answer : Except Rejection α} {another : Except Rejection β}
    (related : (Relator.except False (Rejection.Alike (left.Places right))).Relates values
      answer another) :
    (outcomes excused).Relates values (left.accept answer) (right.accept another) := by
  cases related with
  | ok related => exact outcomes_ok related
  | @error first second related =>
      have places : left.Places right (first.position.getD left.length)
          (second.position.getD right.length) := by
        have position := related.position
        generalize first.position = before at position ⊢
        generalize second.position = after at position ⊢
        cases position with
        | none => exact ⟨left.exists_location?_length, right.exists_location?_length⟩
        | some places => exact places
      obtain ⟨⟨here, here_eq⟩, there, there_eq⟩ := places
      rw [accept, accept, here_eq, there_eq, related.message]
      exact outcomes_failAt _ _ _
  | excused impossible => exact impossible.elim

private theorem Source.outcomes_program (lexes : left.tokens = .ok tokens)
    (another : right.tokens = .ok others)
    (same : others.map Token.content = tokens.map Token.content) :
    (outcomes excused).Relates (Program.Alike (left.Places right)) left.program right.program := by
  rw [program, program, lexes, another]
  exact outcomes_accept (Program.alike_ofTokens (alike_tokens lexes another same))

end Places

/-! ### Compilation -/

private theorem Compiler.compiles_dataflow {excused : Prop} {options : Options}
    {left right : Source}
    {program another : Program} (same : program.Alike (left.Places right) another) :
    (compiles excused).Relates
      (fun first second => (first.Alike second ∧
        (first.functions.map Dataflow.Function.name).Nodup) ∧ first.verify = .ok ())
      (dataflow options left program) (dataflow options right another) := by
  have translated : (outcomes excused).Relates
      (fun first second => first.Alike second ∧
        (first.functions.map Dataflow.Function.name).Nodup)
      (Dataflow.Module.ofProgram left program) (Dataflow.Module.ofProgram right another) :=
    outcomes_and (Dataflow.outcomes_ofProgram same) fun _ => Dataflow.names_ofProgram
  refine (compiles excused).bind (compiles_lift translated) fun first second related => ?_
  exact (compiles excused).bind (compiles_verified _ related.1.verify)
    fun _ _ accepted => (compiles excused).pure ⟨related, accepted⟩

/-- What a failure says apart from the place: the cause, and whether some construct is to blame. -/
def Failure.content : Failure → Option (Cause × Bool)
  | .error found => some (found.cause, found.location.isSome)
  | .fault => none

theorem Failure.Alike.content_eq {first second : Failure} (alike : first.Alike second) :
    first.content = second.content := by
  cases alike <;> rfl

private theorem mapError_content_eq {first second : Outcome Artifact}
    (related : (outcomes False).Relates Artifact.Agrees first second) (ink : Ink) :
    (first >>= Artifact.text ink).mapError Failure.content =
      (second >>= Artifact.text ink).mapError Failure.content := by
  cases related with
  | @ok artifact another agrees =>
      obtain ⟨text, shown, also⟩ := agrees ink
      have first_eq : (Except.ok artifact >>= Artifact.text ink) = .ok text := shown
      have second_eq : (Except.ok another >>= Artifact.text ink) = .ok text := also
      rw [first_eq, second_eq]
  | error alike => exact congrArg Except.error alike.content_eq
  | excused impossible => exact impossible.elim

/-- Layout makes no difference.  Texts with the same tokens, whatever blanks, comments and line
breaks stand between these, have the same dataflow listings, loop listings and output, or fail for
the same cause; only the place of the error may differ.  Tokens with single blanks between them are
such a text. -/
theorem Source.compile_ignores_layout :
    (∀ (left right : Source) (tokens others : List Token), left.tokens = .ok tokens →
      right.tokens = .ok others → others.map Token.content = tokens.map Token.content →
      ∀ stage ∈ [Stage.dataflow, Stage.loops, Stage.run], ∀ (options : Options) (ink : Ink),
        ((left.compile stage options).outcome >>= Artifact.text ink).mapError Failure.content =
          ((right.compile stage options).outcome >>= Artifact.text ink).mapError Failure.content) ∧
    ∀ (source : Source) (tokens : List Token) (origin : Origin), source.tokens = .ok tokens →
      ∃ others, (Source.mk (" ".intercalate (tokens.map Token.text)) origin).tokens = .ok others ∧
        others.map Token.content = tokens.map Token.content := by
  constructor
  · intro left right tokens others lexes another same stage late options ink
    refine mapError_content_eq (outcomes_compile ?_) ink
    refine Compiler.compiles_artifact late (outcomes_program lexes another same)
      (fun _ _ => Compiler.compiles_dataflow) (fun _ _ related => related.1.inline related.2 _)
      fun _ _ related _ => related.1
  · intro source tokens origin lexes
    obtain ⟨others, scanned, content_eq⟩ := Token.scanFrom_spaced (isLexeme_of_tokens lexes) 0
    exact ⟨others, accept_eq_ok_iff.mpr scanned, content_eq⟩

/-- Prints the sum of a row with itself. -/
def Source.doublingRow : Source where
  contents := "def main() \x7b\n  var row = [1, 2];\n  print(row + row);\n\x7d\n"
  origin := .memory

/-- Does the same, spread out and with comments. -/
def Source.doublingRowSpread : Source where
  contents := "# Doubles a row.\ndef main ( )\n\x7b var row=[ 1,2 ];// one and two\n" ++
    "print(\n\trow+row)\r\n;\x7d"
  origin := .file "spread.toy"

theorem Source.compile_ignores_layout_doublingRow :
    (∃ tokens others, doublingRow.tokens = .ok tokens ∧ doublingRowSpread.tokens = .ok others ∧
      others.map Token.content = tokens.map Token.content ∧ others ≠ tokens ∧
      ∃ joined, (Source.mk (" ".intercalate (others.map Token.text)) .memory).tokens = .ok joined ∧
        joined.map Token.content = others.map Token.content) ∧
    ((doublingRow.compile .run ⟨"main", true, false⟩).outcome >>= Artifact.text .plain).mapError
        Failure.content =
      ((doublingRowSpread.compile .run ⟨"main", true, false⟩).outcome >>=
        Artifact.text .plain).mapError Failure.content := by
  have lexed : (doublingRow.tokens.toOption.bind fun tokens =>
      doublingRowSpread.tokens.toOption.filter fun others =>
        others.map Token.content = tokens.map Token.content ∧ others ≠ tokens).isSome = true := by
    decide +kernel
  obtain ⟨others, lexed⟩ := Option.isSome_iff_exists.mp lexed
  obtain ⟨tokens, tokens_eq, lexed⟩ := Option.bind_eq_some_iff.mp lexed
  obtain ⟨others_eq, same⟩ := Option.filter_eq_some_iff.mp lexed
  obtain ⟨same, apart⟩ := of_decide_eq_true same
  have tokens_eq := Except.toOption_eq_some_iff.mp tokens_eq
  have others_eq := Except.toOption_eq_some_iff.mp others_eq
  have alike := compile_ignores_layout.1 doublingRow doublingRowSpread tokens others tokens_eq
    others_eq same .run (by decide) ⟨"main", true, false⟩ .plain
  have joined := compile_ignores_layout.2 doublingRowSpread others .memory others_eq
  exact ⟨⟨tokens, others, tokens_eq, others_eq, same, apart, joined⟩, alike⟩

end TensorLang
