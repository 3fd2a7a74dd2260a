import TensorLang.Proofs.Program.Places

/-!
# Lexing is exact

A lexed text is tiled by its tokens and by what is skipped between them: blanks, and comments to the
end of their line.  Each token is the longest lexeme of its class where it stands.  A text is
refused just if such tiles lead to a place where no lexeme starts, or where a number meets a second
point.
-/

namespace TensorLang

/-! ### Lexemes -/

/-- The classes of lexemes. -/
inductive LexemeClass where
  /-- Keywords and names. -/
  | word
  /-- Numbers. -/
  | number
  /-- Single punctuation characters. -/
  | symbol

/-- The characters are a lexeme of the class, for a token of the kind. -/
inductive IsLexeme : LexemeClass → List Char → TokenKind → Prop where
  | keyword (keyword : Keyword) : IsLexeme .word keyword.spelling.toList (.keyword keyword)
  | identifier {first : Char} {rest : List Char} (starts : isWordStart first = true)
      (parts : ∀ char ∈ rest, isWordPart char = true)
      (free : ∀ keyword : Keyword, keyword.spelling.toList ≠ first :: rest) :
      IsLexeme .word (first :: rest) .identifier
  | number {chars : List Char} (parts : ∀ char ∈ chars, isNumberPart char = true)
      (digit : ∃ char ∈ chars, char.isDigit = true) (points : chars.count '.' ≤ 1) :
      IsLexeme .number chars .number
  | symbol {char : Char} {kind : TokenKind} (found : TokenKind.ofSymbol? char = some kind) :
      IsLexeme .symbol [char] kind

/-- No longer lexeme of the class starts where the characters do. -/
def Longest (sort : LexemeClass) (chars rest : List Char) : Prop :=
  ∀ longer kind, longer <+: chars ++ rest → IsLexeme sort longer kind →
    longer.length ≤ chars.length

/-- The characters only separate tokens when the rest follows them: they are blanks, and comments
that run to the end of their line. -/
inductive Skipped : List Char → List Char → Prop where
  | nil {rest : List Char} : Skipped [] rest
  | blank {char : Char} {gap rest : List Char} (blank : isBlank char = true)
      (further : Skipped gap rest) : Skipped (char :: gap) rest
  | comment {opening body gap rest : List Char} (opens : opening = ['#'] ∨ opening = ['/', '/'])
      (line : '\n' ∉ body) (ends : ∀ next ∈ (gap ++ rest).head?, next = '\n')
      (further : Skipped gap rest) : Skipped (opening ++ body ++ gap) rest

theorem Skipped.comment_front {first : Char} {rest gap after : List Char}
    (further : Skipped gap after) (starts : startsComment first rest = true)
    (rest_eq : afterComment rest = gap ++ after) :
    Skipped (first :: commentTail rest ++ gap) after := by
  have line : '\n' ∉ commentTail rest := fun member => by
    have inside := List.mem_takeWhile_imp member
    simp at inside
  have ends : ∀ next ∈ (gap ++ after).head?, next = '\n' := by
    intro next found
    have fails := List.head?_dropWhile_not (· ≠ '\n') rest
    rw [← afterComment, rest_eq, found] at fails
    simpa using fails
  rw [startsComment, Bool.or_eq_true, Bool.and_eq_true, beq_iff_eq, beq_iff_eq,
    beq_iff_eq] at starts
  rcases starts with rfl | ⟨rfl, second⟩
  · exact .comment (.inl rfl) line ends further
  · cases rest with
    | nil => cases second
    | cons next rest =>
        obtain rfl := Option.some.inj second
        have tail_eq : commentTail ('/' :: rest) = '/' :: commentTail rest := rfl
        rw [tail_eq] at line ⊢
        exact .comment (.inr rfl) (fun member => line (List.mem_cons_of_mem _ member)) ends further

/-- The text cannot be read on, for the reason that the message tells. -/
inductive Stuck : List Char → String → Prop where
  | unknown {first : Char} {rest : List Char} (ink : isBlank first = false)
      (code : startsComment first rest = false)
      (none : ∀ sort chars kind, chars <+: first :: rest → ¬ IsLexeme sort chars kind) :
      Stuck (first :: rest) s!"unexpected character in stream: {quoteName first.toString}"
  | secondPoint {number rest : List Char} (lexeme : IsLexeme .number number .number)
      (point : '.' ∈ number) :
      Stuck (number ++ '.' :: rest) "number literal has more than one decimal point"

/-! ### First characters -/

/-- The class that the first character selects. -/
def LexemeClass.of? (first : Char) : Option LexemeClass :=
  if isWordStart first then some word
  else if isNumberPart first then some number
  else if (TokenKind.ofSymbol? first).isSome then some symbol
  else none

theorem toNat_of_isWordStart {char : Char} (starts : isWordStart char = true) :
    65 ≤ char.toNat ∧ char.toNat ≤ 122 := by
  rw [isWordStart, Bool.or_eq_true, beq_iff_eq] at starts
  rcases starts with letter | rfl
  · simp only [Char.isAlpha, Char.isUpper, Char.isLower, Bool.or_eq_true, Bool.and_eq_true,
      decide_eq_true_eq, UInt32.le_iff_toNat_le] at letter
    rw [Char.toNat]
    grind
  · decide

theorem isWordPart_of_isWordStart {char : Char} (starts : isWordStart char = true) :
    isWordPart char = true := by
  rw [isWordStart, Bool.or_eq_true] at starts
  rw [isWordPart, Bool.or_eq_true, Char.isAlphanum, Bool.or_eq_true]
  exact starts.imp_left .inl

theorem toNat_of_isNumberPart {char : Char} (part : isNumberPart char = true) :
    46 ≤ char.toNat ∧ char.toNat ≤ 57 ∧ char.toNat ≠ 47 := by
  rw [isNumberPart, Bool.or_eq_true, beq_iff_eq] at part
  rcases part with digit | rfl
  · simp only [Char.isDigit, Bool.and_eq_true, decide_eq_true_eq, UInt32.le_iff_toNat_le] at digit
    rw [Char.toNat]
    grind
  · decide

private theorem isNumberPart_of_isWordStart {char : Char} (starts : isWordStart char = true) :
    isNumberPart char = false := by
  rw [Bool.eq_false_iff]
  intro part
  have letter := toNat_of_isWordStart starts
  have digit := toNat_of_isNumberPart part
  omega

theorem isBlank_of_toNat {char : Char} (above : 33 ≤ char.toNat) (below : char.toNat ≤ 126) :
    isBlank char = false := by
  simp only [isBlank, isBlankCode, Bool.or_eq_false_iff, Bool.and_eq_false_iff,
    decide_eq_false_iff_not, beq_eq_false_iff_ne]
  omega

theorem TokenKind.of_ofSymbol? {char : Char} {kind : TokenKind}
    (found : ofSymbol? char = some kind) :
    isWordStart char = false ∧ isNumberPart char = false ∧ isBlank char = false ∧
      char ≠ '#' ∧ char ≠ '/' := by
  unfold ofSymbol? at found
  split at found
  case h_15 => cases found
  all_goals decide

theorem Keyword.exists_spelling (keyword : Keyword) : ∃ first rest,
    keyword.spelling.toList = first :: rest ∧ isWordStart first = true ∧
      ∀ char ∈ rest, isWordPart char = true := by
  cases keyword with
  | defWord => exact ⟨'d', ['e', 'f'], by simp [spelling], by decide, List.all_eq_true.mp rfl⟩
  | funcWord => exact ⟨'f', ['u', 'n', 'c'], by simp [spelling], by decide, List.all_eq_true.mp rfl⟩
  | varWord => exact ⟨'v', ['a', 'r'], by simp [spelling], by decide, List.all_eq_true.mp rfl⟩
  | returnWord =>
      exact ⟨'r', ['e', 't', 'u', 'r', 'n'], by simp [spelling], by decide, List.all_eq_true.mp rfl⟩

theorem Keyword.ofWord?_eq_some_iff {word : String} {keyword : Keyword} :
    ofWord? word = some keyword ↔ keyword.spelling = word := by
  constructor
  · intro found
    rw [ofWord?] at found
    simpa only [beq_iff_eq] using List.find?_some found
  · rintro rfl
    cases keyword <;> decide

namespace IsLexeme

variable {sort other : LexemeClass} {chars longer rest text : List Char} {kind known : TokenKind}

theorem exists_cons (lexeme : IsLexeme sort chars kind) :
    ∃ first tail, chars = first :: tail ∧ LexemeClass.of? first = some sort := by
  cases lexeme with
  | keyword keyword =>
      obtain ⟨first, tail, chars_eq, starts, -⟩ := keyword.exists_spelling
      exact ⟨first, tail, chars_eq, if_pos starts⟩
  | identifier starts => exact ⟨_, _, rfl, if_pos starts⟩
  | number parts digit =>
      obtain ⟨char, member, -⟩ := digit
      obtain ⟨first, tail, rfl⟩ := List.exists_cons_of_ne_nil (List.ne_nil_of_mem member)
      have part := parts first List.mem_cons_self
      have wordless : ¬ isWordStart first = true := fun starts => by
        rw [isNumberPart_of_isWordStart starts] at part
        cases part
      exact ⟨first, tail, rfl, by rw [LexemeClass.of?, if_neg wordless, if_pos part]⟩
  | @symbol char _ found =>
      obtain ⟨wordless, numberless, -⟩ := TokenKind.of_ofSymbol? found
      exact ⟨char, [], rfl, by simp [LexemeClass.of?, wordless, numberless, found]⟩

/-- Lexemes that start at the same place are of the same class. -/
theorem sort_eq (lexeme : IsLexeme sort chars kind) (another : IsLexeme other longer known)
    (front : chars <+: text) (long : longer <+: text) : sort = other := by
  obtain ⟨first, tail, rfl, of_eq⟩ := lexeme.exists_cons
  obtain ⟨head, more, rfl, other_eq⟩ := another.exists_cons
  obtain ⟨_, rfl⟩ := front
  obtain ⟨rfl, -⟩ := List.cons_prefix_cons.mp long
  exact Option.some.inj (of_eq.symm.trans other_eq)

theorem word_parts (lexeme : IsLexeme .word chars kind) :
    ∀ char ∈ chars, isWordPart char = true := by
  cases lexeme with
  | keyword keyword =>
      obtain ⟨first, tail, chars_eq, starts, parts⟩ := keyword.exists_spelling
      rw [chars_eq]
      exact List.forall_mem_cons.mpr ⟨isWordPart_of_isWordStart starts, parts⟩
  | identifier starts parts =>
      exact List.forall_mem_cons.mpr ⟨isWordPart_of_isWordStart starts, parts⟩

theorem word_kind (lexeme : IsLexeme .word chars kind) :
    kind = match Keyword.ofWord? (String.ofList chars) with
      | some reserved => .keyword reserved
      | none => .identifier := by
  cases lexeme with
  | keyword keyword =>
      rw [String.ofList_toList, Keyword.ofWord?_eq_some_iff.mpr rfl]
  | identifier _ _ free =>
      split
      · rename_i reserved found
        refine absurd ?_ (free reserved)
        rw [Keyword.ofWord?_eq_some_iff.mp found, String.toList_ofList]
      · rfl

theorem kind_eq (lexeme : IsLexeme sort chars kind) (another : IsLexeme sort chars known) :
    kind = known := by
  cases sort with
  | word => rw [lexeme.word_kind, another.word_kind]
  | number =>
      cases lexeme
      cases another
      rfl
  | symbol =>
      cases lexeme with
      | symbol found =>
          cases another with
          | symbol known_eq => exact Option.some.inj (found.symm.trans known_eq)

end IsLexeme

/-- Neither blanks nor comments start like a lexeme. -/
theorem ink_of_of? {first : Char} {sort : LexemeClass} (of_eq : LexemeClass.of? first = some sort) :
    isBlank first = false ∧ ∀ rest, startsComment first rest = false := by
  have plain : isBlank first = false ∧ first ≠ '#' ∧ first ≠ '/' := by
    unfold LexemeClass.of? at of_eq
    split at of_eq
    · rename_i starts
      have letter := toNat_of_isWordStart starts
      refine ⟨isBlank_of_toNat (by omega) (by omega), ?_, ?_⟩
      · rintro rfl
        cases starts
      · rintro rfl
        cases starts
    split at of_eq
    · rename_i part
      have digit := toNat_of_isNumberPart part
      refine ⟨isBlank_of_toNat (by omega) (by omega), ?_, ?_⟩
      · rintro rfl
        cases part
      · rintro rfl
        cases part
    split at of_eq
    · rename_i found
      obtain ⟨kind, found⟩ := Option.isSome_iff_exists.mp found
      exact (TokenKind.of_ofSymbol? found).2.2
    · cases of_eq
  refine ⟨plain.1, fun rest => ?_⟩
  rw [startsComment, beq_false_of_ne plain.2.1, beq_false_of_ne plain.2.2]
  rfl

/-! ### Cutting -/

/-- The longest lexeme of its class, which no point follows that would be its second. -/
def IsLongestLexeme (chars rest : List Char) (kind : TokenKind) : Prop :=
  (∃ sort, IsLexeme sort chars kind ∧ Longest sort chars rest) ∧
    ('.' ∈ chars → rest.head? ≠ some '.')

/-- Where a character follows that no lexeme of the class has, the class has no longer lexeme. -/
theorem longest_of_ends {sort : LexemeClass} {chars rest : List Char}
    (ends : ∀ next ∈ rest.head?, ∀ longer kind, IsLexeme sort longer kind → next ∉ longer) :
    Longest sort chars rest := by
  intro longer kind long lexeme
  by_contra more
  obtain ⟨tail, rfl⟩ := List.prefix_of_prefix_length_le (List.prefix_append chars rest) long
    (by omega)
  rw [List.prefix_append_right_inj] at long
  cases tail with
  | nil => simp at more
  | cons next tail =>
      obtain ⟨after, rfl⟩ := long
      exact ends next rfl _ kind lexeme (by simp)

theorem longest_run {sort : LexemeClass} {part : Char → Bool}
    (parts : ∀ chars kind, IsLexeme sort chars kind → ∀ char ∈ chars, part char = true)
    {first : Char} (starts : part first = true) (rest : List Char) :
    Longest sort (first :: rest.takeWhile part) (rest.dropWhile part) := by
  intro longer kind long lexeme
  rw [List.cons_append, List.takeWhile_append_dropWhile] at long
  obtain ⟨more, more_eq⟩ := long
  have run : first :: rest.takeWhile part = longer ++ more.takeWhile part := by
    rw [← List.takeWhile_cons_of_pos starts, ← more_eq,
      List.takeWhile_append_of_pos (parts longer kind lexeme)]
  rw [run, List.length_append]
  exact Nat.le_add_right _ _

namespace Lexeme

variable {first : Char} {rest : List Char} {lexeme : Lexeme} {message : String}

theorem isLongest_of_cut (cut_eq : cut first rest = .ok lexeme) :
    IsLongestLexeme lexeme.chars lexeme.rest lexeme.kind := by
  unfold cut at cut_eq
  split at cut_eq
  · rename_i starts
    obtain ⟨part, digit⟩ := number_parts starts
    dsimp only at cut_eq
    split at cut_eq
    · cases cut_eq
    · rename_i single
      cases cut_eq
      refine ⟨⟨.number, .number ?_ digit (Nat.le_of_not_lt single), longest_run ?_ part rest⟩, ?_⟩
      · exact List.forall_mem_cons.mpr ⟨part, fun char member => List.mem_takeWhile_imp member⟩
      · rintro chars kind ⟨⟩
        assumption
      · intro _ follows
        have fails := List.head?_dropWhile_not isNumberPart rest
        rw [follows] at fails
        cases fails
  · split at cut_eq
    · rename_i starts
      cases cut_eq
      have parts : ∀ char ∈ first :: rest.takeWhile isWordPart, isWordPart char = true :=
        List.forall_mem_cons.mpr
          ⟨isWordPart_of_isWordStart starts, fun char member => List.mem_takeWhile_imp member⟩
      refine ⟨⟨.word, ?_, longest_run (fun _ _ => IsLexeme.word_parts)
        (isWordPart_of_isWordStart starts) rest⟩,
        fun member => absurd (parts '.' member) (by decide)⟩
      dsimp only
      split
      · rename_i keyword found
        have spelled := congrArg String.toList (Keyword.ofWord?_eq_some_iff.mp found)
        rw [String.toList_ofList] at spelled
        rw [← spelled]
        exact .keyword keyword
      · rename_i free
        refine .identifier starts (List.forall_mem_cons.mp parts).2 fun keyword spelled => ?_
        rw [← spelled, String.ofList_toList, Keyword.ofWord?_eq_some_iff.mpr rfl] at free
        cases free
    · split at cut_eq
      · rename_i kind symbol
        cases cut_eq
        refine ⟨⟨.symbol, .symbol symbol, ?_⟩, ?_⟩
        · rintro longer kind - ⟨⟩
          exact Nat.le_refl 1
        · intro member
          obtain rfl := List.mem_singleton.mp member
          cases symbol
      · cases cut_eq

theorem startsNumber_of_lexeme {chars : List Char} {kind : TokenKind}
    (lexeme : IsLexeme .number chars kind) (front : chars <+: first :: rest) :
    startsNumber first rest = true := by
  cases lexeme with
  | number parts digit points =>
      obtain ⟨char, member, is_digit⟩ := digit
      obtain ⟨head, tail, rfl⟩ := List.exists_cons_of_ne_nil (List.ne_nil_of_mem member)
      obtain ⟨rfl, tail_front⟩ := List.cons_prefix_cons.mp front
      rw [startsNumber, Bool.or_eq_true, Bool.and_eq_true, beq_iff_eq]
      by_cases first_digit : head.isDigit = true
      · exact .inl first_digit
      have point : head = '.' := by
        have part := parts head List.mem_cons_self
        rw [isNumberPart, Bool.or_eq_true, beq_iff_eq] at part
        exact part.resolve_left first_digit
      refine .inr ⟨point, ?_⟩
      have later : char ∈ tail := (List.mem_cons.mp member).resolve_left fun same =>
        first_digit (same ▸ is_digit)
      obtain ⟨second, more, rfl⟩ := List.exists_cons_of_ne_nil (List.ne_nil_of_mem later)
      obtain ⟨_, rfl⟩ := tail_front
      have other : second ≠ '.' := by
        rintro rfl
        rw [point, List.count_cons_self, List.count_cons_self] at points
        omega
      have part := parts second (List.mem_cons_of_mem _ List.mem_cons_self)
      rw [isNumberPart, Bool.or_eq_true, beq_iff_eq] at part
      simpa using part.resolve_right other

private theorem exists_secondPoint (starts : startsNumber first rest = true)
    (points : 1 < (first :: rest.takeWhile isNumberPart).count '.') :
    ∃ number after, first :: rest = number ++ '.' :: after ∧
      IsLexeme .number number .number ∧ '.' ∈ number := by
  obtain ⟨part, -⟩ := number_parts starts
  have all_parts : ∀ char ∈ first :: rest.takeWhile isNumberPart, isNumberPart char = true :=
    List.forall_mem_cons.mpr ⟨part, fun char member => List.mem_takeWhile_imp member⟩
  obtain ⟨front, later, run_eq, front_free⟩ := List.eq_append_cons_of_mem
    (List.count_pos_iff.mp (Nat.zero_lt_of_lt points))
  rw [run_eq, List.count_append, List.count_cons_self, List.count_eq_zero.mpr front_free] at points
  obtain ⟨middle, back, rfl, middle_free⟩ := List.eq_append_cons_of_mem
    (List.count_pos_iff.mp (by omega : 0 < later.count '.'))
  have text_eq : first :: rest =
      (front ++ '.' :: middle) ++ '.' :: (back ++ rest.dropWhile isNumberPart) := by
    have whole := congrArg (· ++ rest.dropWhile isNumberPart) run_eq
    simpa [List.takeWhile_append_dropWhile] using whole
  refine ⟨_, _, text_eq, .number ?_ ?_ ?_, by simp⟩
  · intro char member
    refine all_parts char ?_
    rw [run_eq]
    simp only [List.mem_append, List.mem_cons] at member ⊢
    tauto
  · simp only [startsNumber, Bool.or_eq_true, Bool.and_eq_true, beq_iff_eq] at starts
    cases front with
    | cons head tail =>
        obtain ⟨rfl, -⟩ := List.cons.inj text_eq
        refine ⟨first, List.mem_cons_self, starts.resolve_right ?_⟩
        rintro ⟨rfl, -⟩
        exact front_free List.mem_cons_self
    | nil =>
        obtain ⟨rfl, rest_eq⟩ := List.cons.inj text_eq
        obtain follows := (starts.resolve_left (by decide)).2
        rw [rest_eq] at follows
        cases middle with
        | nil => cases follows
        | cons second more => exact ⟨second, by simp, by simpa using follows⟩
  · rw [List.count_append, List.count_cons_self, List.count_eq_zero.mpr front_free,
      List.count_eq_zero.mpr middle_free]

theorem stuck_of_cut (ink : isBlank first = false) (code : startsComment first rest = false)
    (cut_eq : cut first rest = .error message) : Stuck (first :: rest) message := by
  unfold cut at cut_eq
  split at cut_eq
  · rename_i starts
    dsimp only at cut_eq
    split at cut_eq
    · rename_i points
      cases cut_eq
      obtain ⟨number, after, text_eq, lexeme, point⟩ := exists_secondPoint starts points
      rw [text_eq]
      exact .secondPoint lexeme point
    · cases cut_eq
  · rename_i numberless
    split at cut_eq
    · cases cut_eq
    · rename_i wordless
      split at cut_eq
      · cases cut_eq
      · rename_i symbolless
        cases cut_eq
        refine .unknown ink code fun sort chars kind front lexeme => ?_
        obtain ⟨head, tail, rfl, of_eq⟩ := lexeme.exists_cons
        obtain ⟨rfl, -⟩ := List.cons_prefix_cons.mp front
        rw [LexemeClass.of?, if_neg wordless, symbolless] at of_eq
        split at of_eq
        · obtain rfl := Option.some.inj of_eq
          exact numberless (startsNumber_of_lexeme lexeme front)
        · cases of_eq

end Lexeme

/-! ### One reading -/

section Uniqueness

variable {chars rest text : List Char} {kind : TokenKind} {message : String}

/-- Where a longest lexeme stands, the text can be read on. -/
theorem IsLongestLexeme.not_stuck (longest : IsLongestLexeme chars rest kind) :
    ¬ Stuck (chars ++ rest) message := by
  obtain ⟨⟨sort, lexeme, most⟩, unbroken⟩ := longest
  have front : chars <+: chars ++ rest := List.prefix_append _ _
  intro stuck
  generalize text_eq : chars ++ rest = text at stuck front
  cases stuck with
  | unknown _ _ none => exact none sort chars kind front lexeme
  | @secondPoint number after numeral point =>
      have long : number <+: number ++ '.' :: after := List.prefix_append _ _
      obtain rfl := lexeme.sort_eq numeral front long
      have short := most number .number (text_eq ▸ long) numeral
      rcases List.append_eq_append_iff.mp text_eq with
        ⟨more, number_eq, rest_eq⟩ | ⟨more, chars_eq, after_eq⟩
      · obtain rfl : more = [] := by
          rw [number_eq, List.length_append] at short
          exact List.length_eq_zero_iff.mp (by omega)
        rw [List.append_nil] at number_eq
        exact unbroken (number_eq ▸ point) (by rw [rest_eq]; rfl)
      · cases more with
        | nil =>
            rw [List.append_nil] at chars_eq
            exact unbroken (chars_eq ▸ point) (by rw [← List.nil_append rest, ← after_eq]; rfl)
        | cons second more =>
            obtain ⟨rfl, -⟩ := List.cons.inj after_eq
            have points : chars.count '.' ≤ 1 := by
              cases lexeme
              assumption
            rw [chars_eq, List.count_append, List.count_cons_self] at points
            have counted := List.count_pos_iff.mpr point
            omega

private theorem Stuck.message_eq {other : String} (stuck : Stuck text message)
    (again : Stuck text other) :
    message = other := by
  cases stuck with
  | unknown ink code none =>
      generalize text_eq : _ :: _ = text at again
      cases again with
      | unknown =>
          obtain ⟨rfl, -⟩ := List.cons.inj text_eq
          rfl
      | secondPoint numeral => exact absurd numeral (none _ _ _ (text_eq ▸ List.prefix_append _ _))
  | secondPoint numeral point =>
      generalize text_eq : _ ++ '.' :: _ = text at again
      cases again with
      | unknown _ _ none => exact absurd numeral (none _ _ _ (text_eq ▸ List.prefix_append _ _))
      | secondPoint => rfl

/-- A longest lexeme is cut off. -/
theorem IsLongestLexeme.cut_eq (longest : IsLongestLexeme chars rest kind) :
    ∃ first tail, chars = first :: tail ∧ isBlank first = false ∧
      startsComment first (tail ++ rest) = false ∧
      Lexeme.cut first (tail ++ rest) = .ok ⟨kind, chars, rest⟩ := by
  obtain ⟨sort, lexeme, most⟩ := longest.1
  obtain ⟨first, tail, rfl, of_eq⟩ := lexeme.exists_cons
  obtain ⟨ink, code⟩ := ink_of_of? of_eq
  refine ⟨first, tail, rfl, ink, code _, ?_⟩
  cases cut_eq : Lexeme.cut first (tail ++ rest) with
  | error message => exact absurd (Lexeme.stuck_of_cut ink (code _) cut_eq) longest.not_stuck
  | ok found =>
      obtain ⟨known, known_chars, known_rest⟩ := found
      obtain ⟨⟨other, known_lexeme, known_most⟩, -⟩ := Lexeme.isLongest_of_cut cut_eq
      obtain ⟨known_tail, rfl, rest_eq⟩ := Lexeme.cut_eq_ok cut_eq
      have text_eq : first :: tail ++ rest = first :: known_tail ++ known_rest :=
        congrArg (first :: ·) rest_eq
      have front : first :: tail <+: first :: tail ++ rest := List.prefix_append _ _
      have known_front : first :: known_tail <+: first :: tail ++ rest :=
        text_eq ▸ List.prefix_append _ _
      obtain rfl := lexeme.sort_eq known_lexeme front known_front
      have length_eq : (first :: tail).length = (first :: known_tail).length :=
        Nat.le_antisymm (known_most _ _ (text_eq ▸ front) lexeme)
          (most _ _ known_front known_lexeme)
      obtain ⟨chars_eq, rfl⟩ := List.append_inj text_eq length_eq
      rw [← chars_eq] at known_lexeme ⊢
      rw [lexeme.kind_eq known_lexeme]

/-- Where the text cannot be read on, nothing is cut off. -/
theorem Stuck.cut_eq (stuck : Stuck text message) :
    ∃ first rest, text = first :: rest ∧ isBlank first = false ∧
      startsComment first rest = false ∧ Lexeme.cut first rest = .error message := by
  have starts : ∃ first rest, text = first :: rest ∧ isBlank first = false ∧
      startsComment first rest = false := by
    cases stuck with
    | unknown ink code => exact ⟨_, _, rfl, ink, code⟩
    | secondPoint numeral =>
        obtain ⟨first, tail, rfl, of_eq⟩ := numeral.exists_cons
        obtain ⟨ink, code⟩ := ink_of_of? of_eq
        exact ⟨first, _, rfl, ink, code _⟩
  obtain ⟨first, rest, rfl, ink, code⟩ := starts
  refine ⟨first, rest, rfl, ink, code, ?_⟩
  cases cut_eq : Lexeme.cut first rest with
  | error other => rw [stuck.message_eq (Lexeme.stuck_of_cut ink code cut_eq)]
  | ok found =>
      obtain ⟨tail, chars_eq, rest_eq⟩ := Lexeme.cut_eq_ok cut_eq
      have text_eq : first :: rest = found.chars ++ found.rest := by
        rw [chars_eq, rest_eq]
        rfl
      exact absurd (text_eq ▸ stuck) (Lexeme.isLongest_of_cut cut_eq).not_stuck

end Uniqueness

/-! ### Scanning -/

namespace Token

variable {chars gap rest : List Char} {kind : TokenKind} {message : String} {position : Nat}

private theorem comment_eq {body more : List Char} (line : '\n' ∉ body)
    (ends : ∀ next ∈ more.head?, next = '\n') :
    commentTail (body ++ more) = body ∧ afterComment (body ++ more) = more := by
  have inside : ∀ char ∈ body, decide (char ≠ '\n') = true := fun char member =>
    decide_eq_true fun same => line (same ▸ member)
  rw [commentTail, afterComment, List.takeWhile_append_of_pos inside,
    List.dropWhile_append_of_pos inside]
  cases more with
  | nil => simp
  | cons next more =>
      obtain rfl := ends next rfl
      simp

/-- What only separates tokens is passed over. -/
theorem scanFrom_skipped (skipped : Skipped gap rest) :
    scanFrom position (gap ++ rest) = scanFrom (position + byteCount gap) rest := by
  induction skipped generalizing position with
  | nil => rfl
  | @blank char gap rest blank _ induction =>
      rw [List.cons_append, scanFrom, if_pos blank, induction, byteCount_cons, Nat.add_assoc]
  | @comment opening body gap rest opens line ends _ induction =>
      obtain ⟨first, marks, rfl, ink, code, same_line⟩ : ∃ first marks, opening = first :: marks ∧
          isBlank first = false ∧ (∀ rest, startsComment first (marks ++ rest) = true) ∧
          '\n' ∉ marks := by
        rcases opens with rfl | rfl
        · exact ⟨'#', [], rfl, rfl, fun _ => rfl, by simp⟩
        · exact ⟨'/', ['/'], rfl, rfl, fun _ => rfl, by simp⟩
      obtain ⟨tail_eq, after_eq⟩ := comment_eq
        (fun member => (List.mem_append.mp member).elim same_line line) ends
      have text_eq : first :: marks ++ body ++ gap ++ rest =
          first :: (marks ++ body ++ (gap ++ rest)) := by simp
      rw [text_eq, scanFrom, if_neg (by rw [ink]; decide),
        if_pos (by rw [List.append_assoc]; exact code _), tail_eq, after_eq, induction]
      simp only [byteCount_append, byteCount_cons, Nat.add_assoc, List.cons_append]

theorem scanFrom_longest (longest : IsLongestLexeme chars rest kind) :
    scanFrom position (chars ++ rest) =
      (scanFrom (position + byteCount chars) rest).map
        (⟨kind, String.ofList chars, ⟨position, position + byteCount chars⟩⟩ :: ·) := by
  obtain ⟨first, tail, rfl, ink, code, cut_eq⟩ := longest.cut_eq
  rw [List.cons_append, scanFrom, if_neg (by rw [ink]; decide), if_neg (by rw [code]; decide)]
  split
  · rename_i other_eq
    cases cut_eq.symm.trans other_eq
  · rename_i lexeme other_eq
    obtain rfl := Except.ok.inj (cut_eq.symm.trans other_eq)
    dsimp only
    cases scanFrom (position + byteCount (first :: tail)) rest <;> rfl

theorem scanFrom_stuck (stuck : Stuck chars message) :
    scanFrom position chars = .error ⟨some position, message⟩ := by
  obtain ⟨first, rest, rfl, ink, code, cut_eq⟩ := stuck.cut_eq
  rw [scanFrom, if_neg (by rw [ink]; decide), if_neg (by rw [code]; decide)]
  split
  · rename_i other_eq
    obtain rfl := Except.error.inj (cut_eq.symm.trans other_eq)
    rfl
  · rename_i other_eq
    cases cut_eq.symm.trans other_eq

end Token

/-! ### Tiles -/

/-- The span covers the characters in a text, and the rest of the text follows. -/
def Span.Covers (span : Span) (whole covered rest : List Char) : Prop :=
  ∃ before, whole = before ++ covered ++ rest ∧ byteCount before = span.start ∧
    byteCount (before ++ covered) = span.stop

/-- The spans between tokens, from one position to another. -/
def Token.gaps (start : Nat) (tokens : List Token) (stop : Nat) : List Span :=
  match tokens with
  | [] => [⟨start, stop⟩]
  | token :: tokens => ⟨start, token.span.start⟩ :: gaps token.span.stop tokens stop

/-- The tokens are all there is to the text from one position to another, apart from what only
separates them. -/
structure Tiles (whole : List Char) (start : Nat) (tokens : List Token) (stop : Nat) : Prop where
  /-- Each token covers a longest lexeme. -/
  exact : ∀ token ∈ tokens, ∃ covered rest, token.span.Covers whole covered rest ∧
    token.text = String.ofList covered ∧ IsLongestLexeme covered rest token.kind
  /-- No token is empty. -/
  nonempty : ∀ token ∈ tokens, token.span.start < token.span.stop
  /-- Tokens stand in order, and none overlaps with another. -/
  ordered : tokens.Pairwise fun first second => first.span.stop ≤ second.span.start
  /-- What is left between them only separates tokens. -/
  skipped : ∀ gap ∈ Token.gaps start tokens stop, ∃ covered rest, gap.Covers whole covered rest ∧
    Skipped covered rest

namespace Span.Covers

variable {span : Span} {whole before chars covered rest : List Char}

/-- A span that starts where the text is known covers what stands there. -/
theorem eq_append (covers : span.Covers whole covered rest) (whole_eq : whole = before ++ chars)
    (start_eq : byteCount before = span.start) :
    chars = covered ++ rest ∧ span.stop = byteCount (before ++ covered) := by
  obtain ⟨other, other_eq, count_eq, stop_eq⟩ := covers
  have first_split := splitAtByte?_byteCount before chars
  have second_split := splitAtByte?_byteCount other (covered ++ rest)
  rw [← List.append_assoc, ← other_eq, count_eq, ← start_eq, whole_eq, first_split] at second_split
  obtain ⟨rfl, chars_eq⟩ := Prod.mk.inj (Option.some.inj second_split)
  exact ⟨chars_eq, stop_eq.symm⟩

end Span.Covers

namespace Tiles

variable {whole before chars covered rest : List Char} {start middle stop : Nat}
variable {tokens : List Token}

theorem scanFrom_eq (tiles : Tiles whole start tokens stop) (whole_eq : whole = before ++ chars)
    (start_eq : byteCount before = start) :
    ∃ front rest, whole = front ++ rest ∧ byteCount front = stop ∧
      Token.scanFrom start chars = (Token.scanFrom stop rest).map (tokens ++ ·) := by
  induction tokens generalizing start before chars with
  | nil =>
      obtain ⟨covered, rest, covers, skipped⟩ := tiles.skipped _ (List.mem_singleton_self _)
      obtain ⟨rfl, rfl⟩ := covers.eq_append whole_eq start_eq
      refine ⟨before ++ covered, rest, by rw [whole_eq, List.append_assoc], rfl, ?_⟩
      rw [Token.scanFrom_skipped skipped, byteCount_append, start_eq]
      cases Token.scanFrom (start + byteCount covered) rest <;> rfl
  | cons token tokens induction =>
      obtain ⟨gap, rest, covers, skipped⟩ := tiles.skipped _ List.mem_cons_self
      obtain ⟨rfl, first_eq⟩ := covers.eq_append whole_eq start_eq
      obtain ⟨covered, rest, covers, text_eq, longest⟩ := tiles.exact token List.mem_cons_self
      rw [← List.append_assoc] at whole_eq
      obtain ⟨rfl, last_eq⟩ := covers.eq_append whole_eq first_eq.symm
      have later : Tiles whole token.span.stop tokens stop := {
        exact := fun other member => tiles.exact other (List.mem_cons_of_mem _ member)
        nonempty := fun other member => tiles.nonempty other (List.mem_cons_of_mem _ member)
        ordered := (List.pairwise_cons.mp tiles.ordered).2
        skipped := fun gap member => tiles.skipped gap (List.mem_cons_of_mem _ member) }
      rw [← List.append_assoc] at whole_eq
      obtain ⟨front, back, front_eq, stop_eq, scanned⟩ := induction later whole_eq last_eq.symm
      refine ⟨front, back, front_eq, stop_eq, ?_⟩
      have token_eq : token = ⟨token.kind, String.ofList covered,
          ⟨start + byteCount gap, start + byteCount gap + byteCount covered⟩⟩ := by
        obtain ⟨kind, text, first, last⟩ := token
        simp only [byteCount_append, start_eq] at first_eq last_eq text_eq
        rw [first_eq, last_eq, text_eq]
      have stop_eq : token.span.stop = start + byteCount gap + byteCount covered := by
        rw [token_eq]
      rw [Token.scanFrom_skipped skipped, Token.scanFrom_longest longest, ← token_eq, ← stop_eq,
        scanned]
      cases Token.scanFrom stop back <;> rfl

/-- Tokens start after the place where the tiles start. -/
theorem start_le (tiles : Tiles whole start tokens stop) :
    ∀ token ∈ tokens, start ≤ token.span.start := by
  cases tokens with
  | nil => simp
  | cons first tokens =>
      obtain ⟨covered, rest, ⟨before, -, start_eq, stop_eq⟩, -⟩ :=
        tiles.skipped _ List.mem_cons_self
      rw [byteCount_append, start_eq] at stop_eq
      dsimp only at stop_eq
      refine List.forall_mem_cons.mpr ⟨by omega, fun token member => ?_⟩
      have apart := (List.pairwise_cons.mp tiles.ordered).1 token member
      have nonempty := tiles.nonempty first List.mem_cons_self
      omega

/-- More that only separates tokens may stand in front. -/
theorem skip (tiles : Tiles whole middle tokens stop) (whole_eq : whole = before ++ covered ++ rest)
    (start_eq : byteCount before = start) (middle_eq : byteCount (before ++ covered) = middle)
    (separates : ∀ gap after, rest = gap ++ after → Skipped gap after →
      Skipped (covered ++ gap) after) : Tiles whole start tokens stop where
  exact := tiles.exact
  nonempty := tiles.nonempty
  ordered := tiles.ordered
  skipped := by
    obtain ⟨first, others, gaps_eq⟩ : ∃ first others, ∀ start,
        Token.gaps start tokens stop = ⟨start, first⟩ :: others := by
      cases tokens with
      | nil => exact ⟨stop, [], fun _ => rfl⟩
      | cons token tokens => exact ⟨token.span.start, _, fun _ => rfl⟩
    have skipped := tiles.skipped
    rw [gaps_eq, List.forall_mem_cons] at skipped
    rw [gaps_eq, List.forall_mem_cons]
    refine ⟨?_, skipped.2⟩
    obtain ⟨gap, after, covers, gap_skipped⟩ := skipped.1
    obtain ⟨rest_eq, first_eq⟩ := covers.eq_append whole_eq middle_eq
    refine ⟨covered ++ gap, after, ⟨before, ?_, start_eq, ?_⟩,
      separates gap after rest_eq gap_skipped⟩
    · rw [whole_eq, rest_eq]
      simp only [List.append_assoc]
    · rw [← List.append_assoc]
      exact first_eq.symm

/-- One more token may stand in front. -/
theorem cons (token : Token) (tiles : Tiles whole token.span.stop tokens stop)
    (covers : token.span.Covers whole covered rest) (text_eq : token.text = String.ofList covered)
    (longest : IsLongestLexeme covered rest token.kind) :
    Tiles whole token.span.start (token :: tokens) stop where
  exact := List.forall_mem_cons.mpr ⟨⟨covered, rest, covers, text_eq, longest⟩, tiles.exact⟩
  nonempty := by
    refine List.forall_mem_cons.mpr ⟨?_, tiles.nonempty⟩
    obtain ⟨first, tail, rfl, -⟩ := longest.cut_eq
    obtain ⟨before, -, start_eq, stop_eq⟩ := covers
    have positive := Char.utf8Size_pos first
    rw [byteCount_append, byteCount_cons] at stop_eq
    omega
  ordered := List.pairwise_cons.mpr ⟨tiles.start_le, tiles.ordered⟩
  skipped := by
    refine List.forall_mem_cons.mpr ⟨⟨[], covered ++ rest, ?_, .nil⟩, tiles.skipped⟩
    obtain ⟨before, whole_eq, start_eq, -⟩ := covers
    refine ⟨before, by simp [whole_eq], start_eq, by simp [start_eq]⟩

end Tiles

/-! ### Exactness -/

namespace Token

/-- The text from a position on is tiled by tokens up to its end, or up to a place where it cannot
be read on. -/
def Reads (whole : List Char) (start : Nat) : Except Rejection (List Token) → Prop
  | .ok tokens => Tiles whole start tokens (byteCount whole)
  | .error rejection => ∃ tokens front rest, Tiles whole start tokens (byteCount front) ∧
      whole = front ++ rest ∧ Stuck rest rejection.message ∧
      rejection.position = some (byteCount front)

/-- More that only separates tokens may stand in front. -/
theorem Reads.skip {whole before covered rest : List Char} {start middle : Nat}
    {answer : Except Rejection (List Token)} (reads : Reads whole middle answer)
    (whole_eq : whole = before ++ covered ++ rest) (start_eq : byteCount before = start)
    (middle_eq : byteCount (before ++ covered) = middle)
    (separates : ∀ gap after, rest = gap ++ after → Skipped gap after →
      Skipped (covered ++ gap) after) : Reads whole start answer := by
  cases answer with
  | ok tokens => exact Tiles.skip reads whole_eq start_eq middle_eq separates
  | error rejection =>
      obtain ⟨tokens, front, back, tiles, stuck⟩ := reads
      exact ⟨tokens, front, back, tiles.skip whole_eq start_eq middle_eq separates, stuck⟩

theorem reads_scanFrom {whole before chars : List Char} {position : Nat}
    (whole_eq : whole = before ++ chars) (position_eq : byteCount before = position) :
    Reads whole position (scanFrom position chars) := by
  fun_induction scanFrom position chars generalizing before with
  | case1 position =>
      refine ⟨by simp, by simp, List.Pairwise.nil, ?_⟩
      rw [gaps, List.forall_mem_singleton]
      exact ⟨[], [], ⟨before, by simp [whole_eq], position_eq, by simp [whole_eq]⟩, .nil⟩
  | case2 position first rest blank induction =>
      have split_eq : whole = before ++ [first] ++ rest := by simp [whole_eq]
      have middle_eq : byteCount (before ++ [first]) = position + first.utf8Size := by
        simp [byteCount_append, position_eq]
      exact (induction split_eq middle_eq).skip split_eq position_eq middle_eq
        fun gap after _ further => .blank blank further
  | case3 position first rest blank comment induction =>
      have rest_eq : commentTail rest ++ afterComment rest = rest :=
        List.takeWhile_append_dropWhile
      have split_eq : whole = before ++ (first :: commentTail rest) ++ afterComment rest := by
        simp [whole_eq, rest_eq]
      have middle_eq : byteCount (before ++ (first :: commentTail rest)) =
          position + byteCount (first :: commentTail rest) := by
        rw [byteCount_append, position_eq]
      exact (induction split_eq middle_eq).skip split_eq position_eq middle_eq
        fun gap after after_eq further => further.comment_front comment after_eq
  | case4 position first rest blank comment message cut_eq =>
      refine ⟨[], before, first :: rest, ⟨by simp, by simp, List.Pairwise.nil, ?_⟩, whole_eq,
        Lexeme.stuck_of_cut (Bool.eq_false_iff.mpr blank) (Bool.eq_false_iff.mpr comment) cut_eq,
        by rw [position_eq]⟩
      rw [gaps, List.forall_mem_singleton]
      exact ⟨[], first :: rest, ⟨before, by simp [whole_eq], position_eq, by simp⟩, .nil⟩
  | case5 position first rest blank comment lexeme cut_eq stop =>
      rename_i induction
      obtain ⟨tail, chars_eq, rest_eq⟩ := Lexeme.cut_eq_ok cut_eq
      have split_eq : whole = before ++ lexeme.chars ++ lexeme.rest := by
        simp [whole_eq, chars_eq, rest_eq]
      have stop_eq : byteCount (before ++ lexeme.chars) = stop := by
        rw [byteCount_append, position_eq]
      have later := induction split_eq stop_eq
      have longest := Lexeme.isLongest_of_cut cut_eq
      have covers : Span.Covers ⟨position, stop⟩ whole lexeme.chars lexeme.rest :=
        ⟨before, split_eq, position_eq, stop_eq⟩
      cases scan_eq : scanFrom stop lexeme.rest with
      | ok tokens =>
          rw [scan_eq] at later
          exact Tiles.cons ⟨lexeme.kind, _, ⟨position, stop⟩⟩ later covers rfl longest
      | error rejection =>
          rw [scan_eq] at later
          obtain ⟨tokens, front, back, tiles, stuck⟩ := later
          exact ⟨_, front, back,
            Tiles.cons ⟨lexeme.kind, _, ⟨position, stop⟩⟩ tiles covers rfl longest, stuck⟩

/-- A text is lexed into the tokens that tile it. -/
theorem scan_eq_ok_iff {text : String} {tokens : List Token} :
    scan text = .ok tokens ↔ Tiles text.toList 0 tokens (byteCount text.toList) := by
  constructor
  · intro scanned
    have reads := reads_scanFrom (List.nil_append text.toList).symm byteCount_nil
    rw [← scan, scanned] at reads
    exact reads
  · intro tiles
    obtain ⟨front, rest, whole_eq, count_eq, scanned⟩ :=
      tiles.scanFrom_eq (List.nil_append text.toList).symm byteCount_nil
    rw [whole_eq, byteCount_append] at count_eq
    cases rest with
    | nil => rw [scan, scanned, scanFrom, Except.map, List.append_nil]
    | cons next rest =>
        have positive := Char.utf8Size_pos next
        rw [byteCount_cons] at count_eq
        omega

/-- A text is rejected at the place that its tokens lead to and where it cannot be read on. -/
theorem scan_eq_error_iff {text : String} {rejection : Rejection} :
    scan text = .error rejection ↔ ∃ tokens front rest,
      Tiles text.toList 0 tokens (byteCount front) ∧ text.toList = front ++ rest ∧
        Stuck rest rejection.message ∧ rejection.position = some (byteCount front) := by
  constructor
  · intro scanned
    have reads := reads_scanFrom (List.nil_append text.toList).symm byteCount_nil
    rw [← scan, scanned] at reads
    exact reads
  · rintro ⟨tokens, front, rest, tiles, whole_eq, stuck, position_eq⟩
    obtain ⟨other, back, other_eq, count_eq, scanned⟩ :=
      tiles.scanFrom_eq (List.nil_append text.toList).symm byteCount_nil
    have first_split := splitAtByte?_byteCount front rest
    have second_split := splitAtByte?_byteCount other back
    rw [count_eq, ← other_eq, whole_eq, first_split] at second_split
    obtain ⟨-, rfl⟩ := Prod.mk.inj (Option.some.inj second_split)
    rw [scan, scanned, scanFrom_stuck stuck, Except.map, ← position_eq]

end Token

theorem IsLongestLexeme.isSome_parseDouble? {chars rest : List Char}
    (longest : IsLongestLexeme chars rest .number) :
    (parseDouble? (String.ofList chars)).isSome = true := by
  obtain ⟨⟨sort, lexeme, -⟩, -⟩ := longest
  generalize kind_eq : TokenKind.number = kind at lexeme
  cases lexeme with
  | keyword => cases kind_eq
  | identifier => cases kind_eq
  | number parts digit points => exact Lexeme.isSome_parseDouble? parts points digit
  | symbol found =>
      subst kind_eq
      unfold TokenKind.ofSymbol? at found
      split at found <;> cases found

namespace Source

variable {source : Source}

theorem accept_error {α : Type} {rejection : Rejection} {position : Nat} {location : Location}
    (position_eq : rejection.position = some position)
    (location_eq : source.location? position = some location) :
    source.accept (.error rejection : Except Rejection α) =
      .error (.error ⟨.malformed rejection.message, some location⟩) := by
  simp only [accept, position_eq, Option.getD_some, location_eq]
  rfl

/-- A source text is lexed into the tokens that tile it, and its numbers can be read.  It is refused
just if tokens lead to a place where it cannot be read on, and that place is blamed. -/
theorem tokens_exact (source : Source) :
    (∀ tokens, source.tokens = .ok tokens ↔
      Tiles source.contents.toList 0 tokens source.length) ∧
    (∀ failure, source.tokens = .error failure ↔ ∃ tokens front rest message location,
      Tiles source.contents.toList 0 tokens (byteCount front) ∧
        source.contents.toList = front ++ rest ∧ Stuck rest message ∧
        source.Shows (byteCount front) location ∧
        failure = .error ⟨.malformed message, some location⟩) ∧
    ∀ tokens, source.tokens = .ok tokens → ∀ token ∈ tokens, token.kind = .number →
      (parseDouble? token.text).isSome = true := by
  have accepted : ∀ tokens, source.tokens = .ok tokens ↔
      Tiles source.contents.toList 0 tokens source.length := by
    intro tokens
    rw [length, ← Token.scan_eq_ok_iff, Source.tokens, accept_eq_ok_iff]
  refine ⟨accepted, fun failure => ?_, fun tokens lexed token member number => ?_⟩
  · constructor
    · intro refused
      cases scanned : Token.scan source.contents with
      | ok tokens =>
          rw [Source.tokens, accept_eq_ok_iff.mpr scanned] at refused
          cases refused
      | error rejection =>
          obtain ⟨tokens, front, rest, tiles, whole_eq, stuck, position_eq⟩ :=
            Token.scan_eq_error_iff.mp scanned
          obtain ⟨location, location_eq⟩ := exists_location? ⟨front, rest, whole_eq, rfl⟩
          rw [Source.tokens, scanned, accept_error position_eq location_eq] at refused
          exact ⟨tokens, front, rest, _, location, tiles, whole_eq, stuck,
            shows_iff.mpr location_eq, (Except.error.inj refused).symm⟩
    · rintro ⟨tokens, front, rest, message, location, tiles, whole_eq, stuck, shows, rfl⟩
      have scanned : Token.scan source.contents = .error ⟨some (byteCount front), message⟩ :=
        Token.scan_eq_error_iff.mpr ⟨tokens, front, rest, tiles, whole_eq, stuck, rfl⟩
      rw [Source.tokens, scanned, accept_error rfl (shows_iff.mp shows)]
  · obtain ⟨covered, rest, -, text_eq, longest⟩ := ((accepted tokens).mp lexed).exact token member
    rw [text_eq]
    exact (number ▸ longest).isSome_parseDouble?

end Source

end TensorLang
