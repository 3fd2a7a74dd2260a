import Mathlib
import TensorLang.Token.Lexer
import TensorLang.Decimal.Positional

/-!
# What the lexer gives

Each token is cut off at a place of the text, and a text is refused at a place of it.  The word
`print` is a name, and every number can be read as a double.
-/

namespace TensorLang

namespace Lexeme

variable {first : Char} {rest : List Char} {lexeme : Lexeme}

/-- Digits with at most one point, and at least one digit, can be read as a number. -/
theorem isSome_parseDouble? {chars : List Char} (parts : ∀ char ∈ chars, isNumberPart char)
    (single : chars.count '.' ≤ 1) (digit : ∃ char ∈ chars, char.isDigit) :
    (parseDouble? (String.ofList chars)).isSome := by
  have split_eq : chars.takeWhile Char.isDigit ++ chars.dropWhile Char.isDigit = chars :=
    List.takeWhile_append_dropWhile
  cases tail_eq : chars.dropWhile Char.isDigit with
  | nil =>
      have whole : chars.takeWhile Char.isDigit ≠ [] := by
        rw [tail_eq, List.append_nil] at split_eq
        obtain ⟨char, member, -⟩ := digit
        rw [split_eq]
        exact List.ne_nil_of_mem member
      simp [parseDouble?, tail_eq, whole]
  | cons point fraction =>
      have nondigit : point.isDigit = false := by
        simpa [tail_eq] using List.head_dropWhile_not Char.isDigit (l := chars) (by simp [tail_eq])
      have point_eq : point = '.' := by
        have part := parts point (by rw [← split_eq, tail_eq]; simp)
        simpa [isNumberPart, nondigit] using part
      subst point_eq
      have absent : '.' ∉ fraction := by
        intro member
        have counted : 0 < fraction.count '.' := List.count_pos_iff.mpr member
        rw [← split_eq, tail_eq, List.count_append, List.count_cons_self] at single
        omega
      have digits : ∀ char ∈ fraction, char.isDigit := by
        intro char member
        have part := parts char (by rw [← split_eq, tail_eq]; simp [member])
        have other : char ≠ '.' := fun same => absent (same ▸ member)
        simpa [isNumberPart, other] using part
      have some_digit : ((chars.takeWhile Char.isDigit).isEmpty && fraction.isEmpty) = false := by
        by_contra none
        obtain ⟨no_whole, no_fraction⟩ : chars.takeWhile Char.isDigit = [] ∧ fraction = [] := by
          simpa only [Bool.not_eq_false, Bool.and_eq_true, List.isEmpty_iff] using none
        obtain ⟨char, member, is_digit⟩ := digit
        rw [← split_eq, tail_eq, no_whole, no_fraction, List.nil_append,
          List.mem_singleton] at member
        subst member
        cases is_digit
      simp only [parseDouble?, String.toList_ofList, tail_eq, List.all_eq_true.mpr digits,
        ↓reduceIte, some_digit, Bool.false_eq_true, Option.isSome_some]

/-- A number starts with a part of a number, and has a digit. -/
theorem number_parts (starts : startsNumber first rest = true) :
    isNumberPart first = true ∧
      ∃ char ∈ first :: rest.takeWhile isNumberPart, char.isDigit = true := by
  simp only [startsNumber, Bool.or_eq_true, Bool.and_eq_true, beq_iff_eq] at starts
  rcases starts with digit | ⟨rfl, follows⟩
  · exact ⟨by rw [isNumberPart, digit, Bool.true_or], first, List.mem_cons_self, digit⟩
  · refine ⟨rfl, ?_⟩
    cases rest with
    | nil => cases follows
    | cons second rest =>
        have digit : second.isDigit = true := by simpa using follows
        exact ⟨second, by simp [isNumberPart, digit], digit⟩

/-- A lexeme that is a number can be read as one. -/
theorem isSome_of_number (cut_eq : cut first rest = .ok lexeme) (number : lexeme.kind = .number) :
    (parseDouble? (String.ofList lexeme.chars)).isSome := by
  unfold cut at cut_eq
  split at cut_eq
  · rename_i starts
    dsimp only at cut_eq
    split at cut_eq
    · cases cut_eq
    · rename_i single
      cases cut_eq
      obtain ⟨part, digit⟩ := number_parts starts
      exact isSome_parseDouble? (List.forall_mem_cons.mpr
        ⟨part, fun char member => List.mem_takeWhile_imp member⟩) (Nat.le_of_not_lt single) digit
  · split at cut_eq
    · cases cut_eq
      dsimp only at number
      split at number <;> cases number
    · split at cut_eq
      · rename_i kind symbol
        cases cut_eq
        subst number
        unfold TokenKind.ofSymbol? at symbol
        split at symbol <;> cases symbol
      · cases cut_eq

theorem kind_eq_of_print (cut_eq : cut first rest = .ok lexeme)
    (print : String.ofList lexeme.chars = "print") : lexeme.kind = .identifier := by
  obtain ⟨tail, chars_eq, -⟩ := cut_eq_ok cut_eq
  have letters : lexeme.chars = ['p', 'r', 'i', 'n', 't'] := by
    simpa using congrArg String.toList print
  obtain rfl : first = 'p' := by
    rw [chars_eq] at letters
    exact (List.cons.inj letters).1
  have starts : startsNumber 'p' rest = false := rfl
  have word : isWordStart 'p' = true := rfl
  rw [cut, starts, word] at cut_eq
  simp only [Bool.false_eq_true, ↓reduceIte] at cut_eq
  cases cut_eq
  have unreserved : Keyword.ofWord? "print" = none := rfl
  simp [print, unreserved]

end Lexeme

/-- The position stands between two characters of the text, or at an end of it. -/
def Splits (whole : List Char) (position : Nat) : Prop :=
  ∃ before after, whole = before ++ after ∧ byteCount before = position

namespace Token

/-- The token is cut off at a place of the text. -/
structure Cut (whole : List Char) (token : Token) : Prop where
  /-- Where the token starts. -/
  splits : Splits whole token.span.start
  /-- The token has the class and the text of a lexeme. -/
  lexeme : ∃ first rest lexeme, Lexeme.cut first rest = .ok lexeme ∧ token.kind = lexeme.kind ∧
    token.text = String.ofList lexeme.chars

theorem Cut.kind_eq_of_print {whole : List Char} {token : Token} (cut : token.Cut whole)
    (print : token.text = "print") : token.kind = .identifier := by
  obtain ⟨_, _, _, cut_eq, kind_eq, text_eq⟩ := cut.lexeme
  rw [kind_eq]
  exact Lexeme.kind_eq_of_print cut_eq (text_eq ▸ print)

theorem Cut.isSome_of_number {whole : List Char} {token : Token} (cut : token.Cut whole)
    (number : token.kind = .number) : (parseDouble? token.text).isSome := by
  obtain ⟨_, _, _, cut_eq, kind_eq, text_eq⟩ := cut.lexeme
  rw [text_eq]
  exact Lexeme.isSome_of_number cut_eq (kind_eq ▸ number)

/-- Lexing yields tokens of the text, or it ends at a place of the text. -/
def Lexes (whole : List Char) : Except Rejection (List Token) → Prop
  | .ok tokens => ∀ token ∈ tokens, token.Cut whole
  | .error rejection => ∃ place, rejection.position = some place ∧ Splits whole place

private theorem lexes_scanFrom {whole before chars : List Char} {position : Nat}
    (whole_eq : whole = before ++ chars) (position_eq : position = byteCount before) :
    Lexes whole (scanFrom position chars) := by
  fun_induction scanFrom position chars generalizing before with
  | case1 => simp [Lexes]
  | case2 position first rest blank induction =>
      have split_eq : whole = (before ++ [first]) ++ rest := by simp [whole_eq]
      exact induction split_eq (by simp [position_eq, byteCount_append])
  | case3 position first rest blank comment induction =>
      have rest_eq : commentTail rest ++ afterComment rest = rest :=
        List.takeWhile_append_dropWhile
      have split_eq : whole = (before ++ first :: commentTail rest) ++ afterComment rest := by
        simp [whole_eq, rest_eq]
      exact induction split_eq (by simp [position_eq, byteCount_append])
  | case4 position first rest blank comment message cut_eq =>
      exact ⟨position, rfl, before, _, whole_eq, position_eq.symm⟩
  | case5 position first rest blank comment lexeme cut_eq stop =>
      rename_i induction
      obtain ⟨tail, chars_eq, rest_eq⟩ := Lexeme.cut_eq_ok cut_eq
      have split_eq : whole = (before ++ lexeme.chars) ++ lexeme.rest := by
        simp [whole_eq, chars_eq, rest_eq]
      have later := induction split_eq (by simp [stop, position_eq, byteCount_append])
      cases scan_eq : scanFrom stop lexeme.rest with
      | error rejection =>
          rw [scan_eq] at later
          exact later
      | ok tokens =>
          rw [scan_eq] at later
          refine List.forall_mem_cons.mpr ⟨⟨⟨before, _, whole_eq, position_eq.symm⟩, ?_⟩, later⟩
          exact ⟨first, rest, lexeme, cut_eq, rfl, rfl⟩

theorem lexes_scan (text : String) : Lexes text.toList (scan text) :=
  lexes_scanFrom (List.nil_append _).symm rfl

end Token

end TensorLang
