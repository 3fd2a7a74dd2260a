import TensorLang.Dataflow.OfProgram
import TensorLang.Proofs.Dataflow.Literals
import TensorLang.Proofs.Decimal.ReadBack
import TensorLang.Proofs.Program.Completeness
import TensorLang.Proofs.Program.Lexing
import TensorLang.Proofs.Tensor.Text

/-!
# Literals read back

The text of a tensor whose dimensions are all positive and whose values are finite and have no sign
is a literal of the language, with and without blanks after its commas.  The literal is read from
its text: it is cut into tokens, parsed as one expression and flattened to the same tensor.
-/

namespace TensorLang

open Dataflow (Flattened flatten flattenRest tensorLiteral)

/-! ### Cutting texts into tokens -/

section Lexemes

variable {chars rest : List Char} {kind : TokenKind}

private theorem IsLexeme.isLongest_number (lexeme : IsLexeme .number chars kind)
    (ends : ∀ next ∈ rest.head?, isNumberPart next = false) : IsLongestLexeme chars rest kind := by
  constructor
  · refine ⟨.number, lexeme, longest_of_ends ?_⟩
    intro next follows longer other another member
    cases another with
    | number parts =>
        have part := parts next member
        rw [ends next follows] at part
        cases part
  · intro _ follows
    cases ends '.' follows

theorem IsLexeme.isLongest_symbol {char : Char} (found : TokenKind.ofSymbol? char = some kind)
    (rest : List Char) : IsLongestLexeme [char] rest kind := by
  constructor
  · refine ⟨.symbol, .symbol found, ?_⟩
    rintro longer other - ⟨⟩
    exact Nat.le_refl 1
  · intro member
    obtain rfl := List.mem_singleton.mp member
    cases found

theorem IsNumeral.isLexeme {text : String} {whole fraction : List Char}
    (numeral : IsNumeral text whole fraction) : IsLexeme .number text.toList .number := by
  obtain ⟨characters, nonempty, digits⟩ := numeral
  obtain ⟨first, more, rfl⟩ := List.exists_cons_of_ne_nil nonempty
  have pointless : (first :: more ++ fraction).count '.' = 0 := by
    rw [List.count_eq_zero]
    intro member
    cases digits '.' member
  have digit : first.isDigit = true := digits first (by simp)
  have parts : ∀ char ∈ first :: more ++ fraction, isNumberPart char = true := by
    intro char member
    rw [isNumberPart, digits char member, Bool.true_or]
  rcases characters with ⟨text_eq, rfl⟩ | text_eq
  · rw [List.append_nil] at pointless parts
    rw [text_eq]
    exact .number parts ⟨first, List.mem_cons_self, digit⟩ (by omega)
  · rw [List.count_append] at pointless
    rw [text_eq]
    apply IsLexeme.number
    · simp only [List.forall_mem_append, List.forall_mem_cons] at parts ⊢
      exact ⟨parts.1, by decide, parts.2⟩
    · exact ⟨first, by simp, digit⟩
    · rw [List.count_append, List.count_cons_self]
      omega

end Lexemes

/-- A token of a kind at a place. -/
def Token.at (kind : TokenKind) (chars : List Char) (position : Nat) : Token :=
  ⟨kind, String.ofList chars, ⟨position, position + byteCount chars⟩⟩

/-- From a place on, characters are cut into tokens, unless a number goes on behind them. -/
def ScansAs (position : Nat) (chars : List Char) (tokens : List Token) : Prop :=
  ∀ rest : List Char, (∀ next ∈ rest.head?, isNumberPart next = false) →
    Token.scanFrom position (chars ++ rest) =
      (Token.scanFrom (position + byteCount chars) rest).map (tokens ++ ·)

namespace ScansAs

variable {position : Nat} {chars front back : List Char} {tokens before after : List Token}

theorem number (lexeme : IsLexeme .number chars .number) :
    ScansAs position chars [Token.at .number chars position] := by
  intro rest ends
  apply Token.scanFrom_longest
  exact lexeme.isLongest_number ends

theorem symbol {char : Char} {kind : TokenKind} (found : TokenKind.ofSymbol? char = some kind) :
    ScansAs position [char] [Token.at kind [char] position] := by
  intro rest _
  apply Token.scanFrom_longest
  exact IsLexeme.isLongest_symbol found rest

/-- What follows a punctuation character is cut as it would be alone. -/
theorem symbol_front {char : Char} {kind : TokenKind}
    (found : TokenKind.ofSymbol? char = some kind)
    (scans : ScansAs (position + byteCount [char]) back after) :
    ScansAs position (char :: back) (Token.at kind [char] position :: after) := by
  intro rest ends
  have longest := IsLexeme.isLongest_symbol found (back ++ rest)
  rw [← List.singleton_append, List.append_assoc, Token.scanFrom_longest longest, scans rest ends,
    byteCount_append, ← Nat.add_assoc]
  cases Token.scanFrom (position + byteCount [char] + byteCount back) rest <;> rfl

private theorem blanks_front {gap : List Char} (blank : ∀ char ∈ gap, isBlank char = true)
    (scans : ScansAs (position + byteCount gap) back after) :
    ScansAs position (gap ++ back) after := by
  intro rest ends
  have skipped : Skipped gap (back ++ rest) := by
    clear scans
    induction gap with
    | nil => exact .nil
    | cons char gap induction =>
        rw [List.forall_mem_cons] at blank
        exact .blank blank.1 (induction blank.2)
  rw [List.append_assoc, Token.scanFrom_skipped skipped, scans rest ends, byteCount_append,
    Nat.add_assoc]

/-- Characters behind others are cut behind them. -/
theorem append (early : ScansAs position front before)
    (late : ScansAs (position + byteCount front) back after)
    (ends : ∃ next ∈ back.head?, isNumberPart next = false) :
    ScansAs position (front ++ back) (before ++ after) := by
  intro rest rest_ends
  obtain ⟨next, next_eq, other⟩ := ends
  have back_ends : ∀ char ∈ (back ++ rest).head?, isNumberPart char = false := by
    intro char found
    rw [List.head?_append, Option.mem_def.mp next_eq] at found
    obtain rfl := Option.some.inj found
    exact other
  rw [List.append_assoc, early _ back_ends, late rest rest_ends, byteCount_append, ← Nat.add_assoc]
  cases Token.scanFrom (position + byteCount front + byteCount back) rest with
  | error rejection => rfl
  | ok tokens => exact congrArg Except.ok (List.append_assoc _ _ _).symm

end ScansAs

/-! ### Texts of literals -/

/-- The characters are read as one literal, wherever they stand. -/
def ReadsAs (source : Source) (chars : List Char) (flattened : Flattened) : Prop :=
  ∀ position, ∃ tokens tree, ScansAs position chars tokens ∧ Spells .literal tokens tree ∧
    flatten source tree = .ok flattened

/-- The characters are read as literals with commas between them, wherever they stand. -/
def ReadsAsList (source : Source) (chars : List Char) (dimensions : List Nat)
    (pieces : List (List Float)) : Prop :=
  ∀ position, ∃ tokens trees, ScansAs position chars tokens ∧
    Spells (.separated .literal) tokens trees ∧
    List.Forall₂ (fun tree values => flatten source tree = .ok ⟨dimensions, values⟩) trees pieces

section Reading

variable {source : Source} {chars front back gap : List Char} {dimensions : List Nat}
variable {values : List Float} {pieces : List (List Float)}

private theorem readsAs_number {value : Float} (plain : IsPlain value) :
    ReadsAs source (numberText value).toList ⟨[], [value]⟩ := by
  intro position
  obtain ⟨whole, fraction, numeral, -⟩ := plain.exists_isNumeral
  have number_eq : (Token.at .number (numberText value).toList position).number = value := by
    rw [Token.number, Token.at, String.ofList_toList, plain.parseDouble?_numberText]
    rfl
  refine ⟨_, _, .number numeral.isLexeme, .number rfl, ?_⟩
  rw [number_eq, flatten]

private theorem readsAsList_last (reads : ReadsAs source chars ⟨dimensions, values⟩) :
    ReadsAsList source chars dimensions [values] := by
  intro position
  obtain ⟨tokens, tree, scans, spelled, flatten_eq⟩ := reads position
  exact ⟨tokens, [tree], scans, .last spelled, .cons flatten_eq .nil⟩

private theorem readsAsList_further (blank : ∀ char ∈ gap, isBlank char = true)
    (reads : ReadsAs source front ⟨dimensions, values⟩)
    (list : ReadsAsList source back dimensions pieces) :
    ReadsAsList source (front ++ ',' :: (gap ++ back)) dimensions (values :: pieces) := by
  intro position
  obtain ⟨before, tree, front_scans, front_spelled, front_eq⟩ := reads position
  obtain ⟨after, trees, back_scans, back_spelled, back_eq⟩ :=
    list (position + byteCount front + byteCount [','] + byteCount gap)
  have scans := front_scans.append (.symbol_front rfl (.blanks_front blank back_scans))
    ⟨',', rfl, rfl⟩
  exact ⟨_, _, scans, .further front_spelled rfl back_spelled, .cons front_eq back_eq⟩

private theorem readsAsList_intercalate {separator : String} {rows : List String}
    (separates : separator.toList = ',' :: gap) (blank : ∀ char ∈ gap, isBlank char = true)
    (filled : rows ≠ [])
    (reads : List.Forall₂ (fun row values => ReadsAs source row.toList ⟨dimensions, values⟩)
      rows pieces) :
    ReadsAsList source (separator.intercalate rows).toList dimensions pieces := by
  induction reads with
  | nil => contradiction
  | @cons row values rows pieces first others induction =>
      cases others with
      | nil =>
          rw [String.intercalate_singleton]
          exact readsAsList_last first
      | cons =>
          rw [String.intercalate_cons_cons, String.toList_append, String.toList_append, separates,
            List.append_assoc, List.cons_append]
          exact readsAsList_further blank first (induction (List.cons_ne_nil _ _))

private theorem flattenRest_of_forall₂ {trees : List Literal}
    (each : List.Forall₂ (fun tree values => flatten source tree = .ok ⟨dimensions, values⟩)
      trees pieces) : flattenRest source dimensions trees = .ok pieces.flatten := by
  induction each with
  | nil => rw [flattenRest, List.flatten_nil]
  | cons first _ induction =>
      rw [flattenRest, first, induction]
      simp [bind, Except.bind, pure, Except.pure]

private theorem readsAs_array (list : ReadsAsList source chars dimensions pieces) :
    ReadsAs source ('[' :: chars ++ [']']) ⟨pieces.length :: dimensions, pieces.flatten⟩ := by
  intro position
  obtain ⟨tokens, trees, scans, spelled, each⟩ := list (position + byteCount ['['])
  have closing : TokenKind.ofSymbol? ']' = some .closeBracket := rfl
  have closed := scans.append (.symbol closing) ⟨']', rfl, rfl⟩
  refine ⟨_, _, .symbol_front rfl closed, .array rfl spelled rfl, ?_⟩
  cases each with
  | nil => cases spelled
  | cons first others =>
      rw [flatten, first]
      simp [bind, Except.bind, pure, Except.pure, flattenRest_of_forall₂ others, others.length_eq]

private theorem readsAs_nestedText {separator : String} (separates : separator.toList = ',' :: gap)
    (blank : ∀ char ∈ gap, isBlank char = true) (positive : 0 ∉ dimensions)
    {element : List Nat → Float}
    (plain : ∀ indices, Shape.Within dimensions indices → IsPlain (element indices)) :
    ReadsAs source (nestedText separator dimensions element).toList
      ⟨dimensions, (Shape.indexTuples dimensions).map element⟩ := by
  induction dimensions generalizing element with
  | nil => exact readsAs_number (plain [] trivial)
  | cons outer inner induction =>
      rw [List.mem_cons, not_or] at positive
      let row (index : Nat) := nestedText separator inner fun indices => element (index :: indices)
      let piece (index : Nat) :=
        (Shape.indexTuples inner).map fun indices => element (index :: indices)
      have filled : (List.range outer).map row ≠ [] := by
        rw [Ne, List.map_eq_nil_iff, List.range_eq_nil]
        omega
      have reads : List.Forall₂ (fun row values => ReadsAs source row.toList ⟨inner, values⟩)
          ((List.range outer).map row) ((List.range outer).map piece) := by
        rw [List.forall₂_map_left_iff, List.forall₂_map_right_iff, List.forall₂_same]
        intro index inside
        apply induction positive.2
        intro indices within
        exact plain (index :: indices) ⟨List.mem_range.mp inside, within⟩
      have array := readsAs_array (readsAsList_intercalate separates blank filled reads)
      have values_eq : ((List.range outer).map piece).flatten =
          (Shape.indexTuples (outer :: inner)).map element := by
        rw [Shape.indexTuples, List.map_flatMap, List.flatMap]
        simp [piece, Function.comp_def]
      rw [values_eq, List.length_map, List.length_range] at array
      rw [nestedText, String.toList_append, String.toList_append]
      exact array

end Reading

/-! ### Whole texts -/

/-- Characters that are read as a literal wherever they stand are one expression when they stand
alone. -/
theorem ReadsAs.expression {text : String} {origin : Origin} {flattened : Flattened}
    (reads : ReadsAs ⟨text, origin⟩ text.toList flattened) :
    ∃ tokens tree, (Source.mk text origin).tokens = .ok tokens ∧
      Parser.expression tokens = .ok (.literal tree, []) ∧
      flatten ⟨text, origin⟩ tree = .ok flattened := by
  obtain ⟨tokens, tree, scans, spelled, flatten_eq⟩ := reads 0
  have scan_eq : Token.scan text = .ok tokens := by
    have scanned := scans [] (by simp)
    rw [List.append_nil, Token.scanFrom] at scanned
    rw [Token.scan, scanned]
    exact congrArg Except.ok (List.append_nil tokens)
  have cut : ∀ token ∈ tokens, token.Cut text.toList := by
    have lexed := Token.lexes_scan text
    rwa [scan_eq] at lexed
  have parsed := Parser.expression_eq [] (.summand (.factor (.constant spelled))) cut
    (by simp [Parser.Stops])
  rw [List.append_nil] at parsed
  exact ⟨tokens, tree, Source.accept_eq_ok_iff.mpr scan_eq, parsed, flatten_eq⟩

private theorem TensorLiteral.ofValues?_self (literal : TensorLiteral) :
    ofValues? literal.shape literal.values = some literal := by
  rw [ofValues?, dif_pos ⟨literal.filled, literal.bounded⟩]

private theorem exists_gap {separator : String} (used : separator ∈ [", ", ","]) :
    ∃ gap, separator.toList = ',' :: gap ∧ ∀ char ∈ gap, isBlank char = true := by
  simp only [List.mem_cons, List.not_mem_nil, or_false] at used
  rcases used with rfl | rfl
  · exact ⟨[' '], by simp, List.forall_mem_singleton.mpr (by decide)⟩
  · exact ⟨[], by simp, List.forall_mem_nil _⟩

private theorem readsAs_nestedText?_of_filled {separator : String} {dimensions : List Nat}
    {values : List Float} (used : separator ∈ [", ", ","])
    (filled : values.length = (Shape.mk dimensions).size) (positive : 0 ∉ dimensions)
    (plain : ∀ value ∈ values, IsPlain value) :
    ∃ text, nestedText? separator dimensions values = some text ∧
      ∀ source, ReadsAs source text.toList ⟨dimensions, values⟩ := by
  obtain ⟨gap, separates, blank⟩ := exists_gap used
  have plain_at : ∀ indices, Shape.Within dimensions indices →
      IsPlain (values.getD (Shape.rowMajor dimensions indices) 0) :=
    fun indices within => plain _ (getD_rowMajor_mem filled within)
  refine ⟨_, nestedText?_of_filled separator filled, fun source => ?_⟩
  have reads : ReadsAs source _ _ := readsAs_nestedText separates blank positive plain_at
  rwa [map_rowMajor_indexTuples filled] at reads

/-- The text of a literal is read back as the same literal, if its dimensions are positive and its
values are finite and have no sign. -/
theorem TensorLiteral.reads_back {literal : TensorLiteral} {separator : String}
    (used : separator ∈ [", ", ","])
    (positive : ∀ dimension ∈ literal.shape.dimensions, 1 ≤ dimension)
    (plain : ∀ value ∈ literal.values, IsPlain value) (origin : Origin) :
    ∃ text tokens tree,
      nestedText? separator literal.shape.dimensions literal.values = some text ∧
      (Source.mk text origin).tokens = .ok tokens ∧
      Parser.expression tokens = .ok (.literal tree, []) ∧
      flatten ⟨text, origin⟩ tree = .ok ⟨literal.shape.dimensions, literal.values⟩ ∧
      tensorLiteral ⟨text, origin⟩ tree = .ok literal := by
  have nonzero : 0 ∉ literal.shape.dimensions := by
    intro zero
    have least := positive 0 zero
    omega
  obtain ⟨text, text_eq, reads⟩ := readsAs_nestedText?_of_filled used literal.filled nonzero plain
  obtain ⟨tokens, tree, tokens_eq, parsed, flatten_eq⟩ := (reads ⟨_, origin⟩).expression
  refine ⟨text, tokens, tree, text_eq, tokens_eq, parsed, flatten_eq, ?_⟩
  rw [tensorLiteral, flatten_eq]
  change Outcome.promised (TensorLiteral.ofValues? literal.shape literal.values) = .ok literal
  rw [literal.ofValues?_self]
  rfl

/-- A square of whole numbers and fractions. -/
def TensorLiteral.fractions : TensorLiteral := ⟨⟨⟨[2, 2]⟩, [0, 2.5, 0.1, 30], rfl⟩, by decide⟩

theorem TensorLiteral.isPlain_fractions : ∀ value ∈ fractions.values, IsPlain value := by
  simp only [fractions, List.forall_mem_cons, List.not_mem_nil, false_imp_iff, implies_true,
    and_true]
  refine ⟨⟨rfl, 0, -1074, rfl⟩, ⟨rfl, 5629499534213120, -51, rfl⟩,
    ⟨rfl, 7205759403792794, -56, rfl⟩, rfl, 8444249301319680, -48, rfl⟩

theorem TensorLiteral.reads_back_fractions :
    ", " ∈ [", ", ","] ∧ (∀ dimension ∈ fractions.shape.dimensions, 1 ≤ dimension) ∧
      (∀ value ∈ fractions.values, IsPlain value) ∧
      ∃ text tokens tree,
        nestedText? ", " fractions.shape.dimensions fractions.values = some text ∧
        (Source.mk text .memory).tokens = .ok tokens ∧
        Parser.expression tokens = .ok (.literal tree, []) ∧
        flatten ⟨text, .memory⟩ tree = .ok ⟨fractions.shape.dimensions, fractions.values⟩ ∧
        tensorLiteral ⟨text, .memory⟩ tree = .ok fractions := by
  have used : ", " ∈ [", ", ","] := List.mem_cons_self
  have positive : ∀ dimension ∈ fractions.shape.dimensions, 1 ≤ dimension := by decide
  exact ⟨used, positive, isPlain_fractions,
    reads_back used positive isPlain_fractions .memory⟩

example : TensorLiteral.fractions.text? = some "[[0, 2.5], [0.1, 30]]" := by decide +kernel

end TensorLang
