import TensorLang.Proofs.Program.Parsing
import TensorLang.Proofs.Program.Scanning
import TensorLang.Proofs.Refusing

/-!
# Places of a program

The span of every construct starts where one of its tokens starts, and tokens start between
characters.  So each construct has a line and a column, and so has the place at which a text is
refused.  A literal has no more numbers than the text has bytes.
-/

namespace TensorLang

/-! ### Counted numbers -/

namespace Literal

mutual

/-- Number of numbers in the literal. -/
def count : Literal → Nat
  | .number _ _ => 1
  | .array _ elements => countAll elements

/-- Number of numbers in several literals. -/
def countAll : List Literal → Nat
  | [] => 0
  | literal :: literals => literal.count + countAll literals

end

end Literal

/-- Number of numbers in the trees of literals. -/
def Category.numbers : (category : Category) → category.Tree → Nat
  | .literal, tree => tree.count
  | .separated .literal, trees => Literal.countAll trees
  | _, _ => 0

theorem Spells.numbers_le {category : Category} {tokens : List Token} {tree : category.Tree}
    (spelled : Spells category tokens tree) : category.numbers tree ≤ tokens.length := by
  induction spelled with
  | number => simp [Category.numbers, Literal.count]
  | array _ _ _ inside =>
      simp only [Category.numbers, Literal.count, List.length_append, List.length_cons] at inside ⊢
      omega
  | @last item _ _ _ whole =>
      cases item with
      | literal => simpa [Category.numbers, Literal.countAll] using whole
      | _ => exact Nat.zero_le _
  | @further item _ _ _ _ _ _ _ _ front back =>
      cases item with
      | literal =>
          simp only [Category.numbers, Literal.countAll, List.length_append,
            List.length_cons] at front back ⊢
          omega
      | _ => exact Nat.zero_le _
  | _ => exact Nat.zero_le _

/-! ### Located trees -/

/-- The start of the span has a line and a column. -/
def Source.Locates (source : Source) (span : Span) : Prop :=
  ∃ location, source.locate span = .ok location

/-- A longer span starts at the same place. -/
theorem Source.Locates.to {source : Source} {first : Span} (located : source.Locates first)
    (last : Span) : source.Locates (first.to last) := located

/-- The parts of the literal can be located. -/
inductive Literal.Located (source : Source) : Literal → Prop where
  | number {span : Span} {value : Float} (located : source.Locates span) :
      Located source (.number span value)
  | array {span : Span} {elements : List Literal} (located : source.Locates span)
      (inside : ∀ element ∈ elements, Located source element) :
      Located source (.array span elements)

theorem Literal.Located.span {source : Source} {literal : Literal}
    (located : literal.Located source) : source.Locates literal.span := by
  cases located with
  | number located => exact located
  | array located => exact located

/-- The parts of the expression can be located, and no literal has more numbers than the limit. -/
inductive Expression.Located (source : Source) (limit : Nat) : Expression → Prop where
  | literal {value : Literal} (located : value.Located source) (short : value.count ≤ limit) :
      Located source limit (.literal value)
  | identifier {name : Identifier} (located : source.Locates name.span) :
      Located source limit (.identifier name)
  | binary {span operatorSpan : Span} {operator : Operator} {left right : Expression}
      (located : source.Locates span) (left_located : Located source limit left)
      (operator_located : source.Locates operatorSpan)
      (right_located : Located source limit right) :
      Located source limit (.binary span left operator operatorSpan right)
  | call {span : Span} {callee : Identifier} {arguments : List Expression}
      (located : source.Locates span) (callee_located : source.Locates callee.span)
      (inside : ∀ argument ∈ arguments, Located source limit argument) :
      Located source limit (.call span callee arguments)

theorem Expression.Located.span {source : Source} {limit : Nat} {expression : Expression}
    (located : expression.Located source limit) : source.Locates expression.span := by
  cases located with
  | literal located => exact located.span
  | identifier located => exact located
  | binary located => exact located
  | call located => exact located

/-- The parts of the declaration can be located. -/
structure Declaration.Located (source : Source) (limit : Nat) (declaration : Declaration) :
    Prop where
  /-- The declaration itself. -/
  span : source.Locates declaration.span
  /-- The variable. -/
  name : source.Locates declaration.name.span
  /-- The declared shape. -/
  shape : ∀ clause ∈ declaration.shape, source.Locates clause.span
  /-- The initial value. -/
  initializer : declaration.initializer.Located source limit

/-- The parts of the action can be located. -/
def Action.Located (source : Source) (limit : Nat) : Action → Prop
  | .declare declaration => declaration.Located source limit
  | .leave value => ∀ expression ∈ value, expression.Located source limit
  | .print value => value.Located source limit
  | .evaluate expression => expression.Located source limit

/-- The parts of the statement can be located. -/
structure Statement.Located (source : Source) (limit : Nat) (statement : Statement) : Prop where
  /-- The statement itself. -/
  span : source.Locates statement.span
  /-- What the statement does. -/
  action : statement.action.Located source limit

/-- The parts of the function can be located. -/
structure FunctionDefinition.Located (source : Source) (limit : Nat)
    (definition : FunctionDefinition) : Prop where
  /-- The function's name. -/
  name : source.Locates definition.name.span
  /-- The parameters. -/
  parameters : ∀ parameter ∈ definition.parameters, source.Locates parameter.span
  /-- The statements. -/
  statements : ∀ statement ∈ definition.body.statements, statement.Located source limit

/-- The parts of the program can be located. -/
def Program.Located (source : Source) (limit : Nat) (program : Program) : Prop :=
  ∀ definition ∈ program.functions, definition.Located source limit

/-- The parts of the tree can be located. -/
def Category.Located (source : Source) (limit : Nat) : (category : Category) → category.Tree → Prop
  | .identifier, tree => source.Locates tree.span
  | .literal, tree => tree.Located source
  | .primary, tree | .term, tree | .expression, tree => tree.Located source limit
  | .shape, tree => source.Locates tree.span
  | .statement, tree => tree.Located source limit
  | .block, tree => ∀ statement ∈ tree.statements, statement.Located source limit
  | .function, tree => tree.Located source limit
  | .optional item, found => ∀ tree ∈ found, item.Located source limit tree
  | .separated item, trees | .listed item, trees | .many item, trees =>
      ∀ tree ∈ trees, item.Located source limit tree
  | .dimension, _ => True

section Derivations

variable {source : Source} {limit : Nat} {front back tokens : List Token} {token : Token}

/-- The tokens can be located, and they are no more than the limit. -/
structure Placed (source : Source) (limit : Nat) (tokens : List Token) : Prop where
  /-- There are not too many. -/
  short : tokens.length ≤ limit
  /-- Each of them can be located. -/
  located : ∀ token ∈ tokens, source.Locates token.span

namespace Placed

theorem of_append (placed : Placed source limit (front ++ back)) :
    Placed source limit front ∧ Placed source limit back := by
  obtain ⟨short, located⟩ := placed
  rw [List.length_append] at short
  rw [List.forall_mem_append] at located
  exact ⟨⟨by omega, located.1⟩, ⟨by omega, located.2⟩⟩

theorem of_cons (placed : Placed source limit (token :: tokens)) :
    source.Locates token.span ∧ Placed source limit tokens := by
  have divided : Placed source limit ([token] ++ tokens) := placed
  exact ⟨placed.located token List.mem_cons_self, divided.of_append.2⟩

/-- What stands between two tokens. -/
theorem of_enclosed {opening closing : Token}
    (placed : Placed source limit (opening :: tokens ++ [closing])) :
    source.Locates opening.span ∧ Placed source limit tokens :=
  of_cons (of_append placed).1

/-- What stands on the two sides of a token. -/
theorem of_divided (placed : Placed source limit (front ++ token :: back)) :
    Placed source limit front ∧ source.Locates token.span ∧ Placed source limit back :=
  ⟨(of_append placed).1, of_cons (of_append placed).2⟩

end Placed

/-- A binary operator is located with its operands. -/
theorem Expression.Located.joined {left right : Expression} {operator : Operator} {sign : Token}
    (left_located : left.Located source limit) (sign_located : source.Locates sign.span)
    (right_located : right.Located source limit) :
    (Expression.binary (left.span.to right.span) left operator sign.span right).Located source
      limit :=
  .binary (left_located.span.to _) left_located sign_located right_located

/-- Where the tokens can be located, so can the tree that is derived from them. -/
theorem Spells.located {category : Category} {tree : category.Tree}
    (spelled : Spells category tokens tree) (placed : Placed source limit tokens) :
    category.Located source limit tree := by
  induction spelled with
  | identifier => exact placed.of_cons.1
  | dimension => trivial
  | number => exact Literal.Located.number placed.of_cons.1
  | array _ _ _ inside =>
      obtain ⟨opening, enclosed⟩ := placed.of_enclosed
      exact Literal.Located.array (opening.to _) (inside enclosed)
  | constant whole inside =>
      exact Expression.Located.literal (inside placed) (whole.numbers_le.trans placed.short)
  | «variable» _ whole => exact Expression.Located.identifier (whole placed)
  | call _ _ _ _ _ inside =>
      obtain ⟨callee, rest⟩ := placed.of_append.1.of_cons
      exact Expression.Located.call (callee.to _) callee (inside rest.of_cons.2)
  | group _ _ _ inside => exact inside placed.of_enclosed.2
  | factor _ whole | summand _ whole | listed _ whole => exact whole placed
  | multiply _ _ _ front back | matmul _ _ _ front back | add _ _ _ front back =>
      obtain ⟨before, sign, after⟩ := placed.of_divided
      exact Expression.Located.joined (front before) sign (back after)
  | shape => exact placed.of_enclosed.1.to _
  | declare _ _ _ _ _ _ shaped inside =>
      obtain ⟨keyword, rest⟩ := placed.of_append.1.of_cons
      obtain ⟨name, rest⟩ := rest.of_cons
      obtain ⟨before, -, after⟩ := rest.of_divided
      exact ⟨keyword.to _, ⟨keyword.to _, name, shaped before, inside after⟩⟩
  | leave _ _ _ inside =>
      obtain ⟨keyword, rest⟩ := placed.of_enclosed
      exact ⟨keyword.to _, inside rest⟩
  | print _ _ _ _ _ inside =>
      obtain ⟨word, rest⟩ := placed.of_append.1.of_cons
      exact ⟨word.to _, inside rest.of_cons.2⟩
  | evaluate _ _ inside =>
      have located := inside placed.of_append.1
      exact ⟨located.span.to _, located⟩
  | block _ _ _ inside => exact inside placed.of_enclosed.2
  | function _ _ _ _ _ _ declared defined =>
      obtain ⟨before, -, after⟩ := placed.of_divided
      obtain ⟨name, rest⟩ := before.of_cons.2.of_cons
      exact ⟨name, declared rest.of_cons.2, defined after⟩
  | present _ whole => simpa [Category.Located] using whole placed
  | last _ whole => exact List.forall_mem_singleton.mpr (whole placed)
  | further _ _ _ front back =>
      obtain ⟨before, -, after⟩ := placed.of_divided
      exact List.forall_mem_cons.mpr ⟨front before, back after⟩
  | more _ _ front back =>
      obtain ⟨before, after⟩ := placed.of_append
      exact List.forall_mem_cons.mpr ⟨front before, back after⟩
  | absent | unlisted | none => simp [Category.Located]

end Derivations

/-! ### Texts -/

/-- There are no more characters than bytes. -/
theorem length_le_byteCount (chars : List Char) : chars.length ≤ byteCount chars := by
  induction chars with
  | nil => exact Nat.le_refl _
  | cons char chars induction =>
      have positive := Char.utf8Size_pos char
      rw [List.length_cons, byteCount_cons]
      omega

theorem Token.length_scanFrom_le {position : Nat} {chars : List Char} {tokens : List Token}
    (success : scanFrom position chars = .ok tokens) : tokens.length ≤ chars.length := by
  fun_induction scanFrom position chars generalizing tokens with
  | case1 => simp [← Except.ok.inj success]
  | case2 position first rest blank induction => exact Nat.le_succ_of_le (induction success)
  | case3 position first rest blank comment induction =>
      exact Nat.le_succ_of_le ((induction success).trans (length_afterComment_le rest))
  | case4 => cases success
  | case5 position first rest blank comment lexeme cut_eq stop =>
      rename_i induction
      obtain ⟨others, others_eq, rfl⟩ := Except.map_eq_ok_iff.mp success
      rw [List.length_cons, List.length_cons]
      exact Nat.succ_le_succ
        ((induction others_eq).trans (Lexeme.length_rest_le_of_cut cut_eq))

namespace Program

variable {tokens : List Token}

theorem spells_of_ofTokens {program : Program} (success : ofTokens tokens = .ok program) :
    Spells (.many .function) tokens program.functions := by
  obtain ⟨⟨_, rest⟩, parsed, rfl⟩ := Except.map_eq_ok_iff.mp success
  exact (Parser.spells_of_program parsed).2

/-- Where the tokens are refused before their end, they are refused at one of them. -/
theorem exists_start_of_error {rejection : Rejection}
    (failure : ofTokens tokens = .error rejection) :
    ∀ position ∈ rejection.position, ∃ token ∈ tokens, token.span.start = position := by
  intro position found
  have parses : Parser.Answers (· ∈ tokens) tokens (fun program used =>
      used = tokens ∧ Spells (.many .function) used program.functions) (Parser.program tokens) :=
    Parser.delivers_program fun token member => member
  rw [ofTokens, StateT.run'] at failure
  cases parsed : Parser.program tokens with
  | ok result =>
      rw [parsed] at failure
      cases failure
  | error other =>
      rw [parsed] at failure
      obtain rfl := Except.error.inj failure
      rw [parsed] at parses
      exact parses position found

end Program

namespace Source

variable {source : Source}

/-- The location names the origin of the source text, and the line and the column of the position in
32-bit words.  Below 2 ^ 32 - 1 bytes these are the line and the column themselves. -/
structure Shows (source : Source) (position : Nat) (location : Location) : Prop where
  /-- The origin is named. -/
  file : location.file = source.origin.name
  /-- Line and column are kept in words. -/
  words : ∃ line column, source.lineColumn? position = some (line, column) ∧
    location.line = .ofNat line ∧ location.column = .ofNat column
  /-- Nothing is lost in the words of a shorter text. -/
  exact : source.length + 1 < UInt32.size →
    source.lineColumn? position = some (location.line.toNat, location.column.toNat)

private theorem byteCount_takeWhile_le (keep : Char → Bool) (chars : List Char) :
    byteCount (chars.takeWhile keep) ≤ byteCount chars := by
  conv_rhs => rw [← List.takeWhile_append_dropWhile (p := keep) (l := chars)]
  rw [byteCount_append]
  exact Nat.le_add_right _ _

private theorem byteCount_reverse (chars : List Char) :
    byteCount chars.reverse = byteCount chars := by
  induction chars with
  | nil => rfl
  | cons char chars induction =>
      rw [List.reverse_cons, byteCount_append, induction, byteCount_cons, byteCount_cons,
        byteCount_nil, Nat.add_zero, Nat.add_comm]

private theorem lineColumn?_le {position line column : Nat}
    (found : source.lineColumn? position = some (line, column)) :
    line ≤ source.length + 1 ∧ column ≤ source.length + 1 := by
  obtain ⟨⟨before, after⟩, split_eq, place_eq⟩ := Option.map_eq_some_iff.mp found
  obtain ⟨rfl, rfl⟩ := Prod.mk.inj place_eq
  have inside : byteCount before ≤ source.length :=
    (splitAtByte?_eq_some split_eq).2 ▸ Nat.min_le_right _ _
  have feeds : before.count '\n' ≤ byteCount before :=
    List.count_le_length.trans (length_le_byteCount before)
  have started := byteCount_takeWhile_le (· ≠ '\n') before.reverse
  rw [byteCount_reverse] at started
  exact ⟨Nat.succ_le_succ (feeds.trans inside), Nat.succ_le_succ (started.trans inside)⟩

/-- The location of a position shows it, and no other location does. -/
theorem shows_iff {position : Nat} {location : Location} :
    source.Shows position location ↔ source.location? position = some location := by
  constructor
  · rintro ⟨file, ⟨line, column, place_eq, line_eq, column_eq⟩, -⟩
    rw [location?, place_eq, Option.map_some, Location.ofPlace, ← file, ← line_eq, ← column_eq]
  · intro found
    obtain ⟨⟨line, column⟩, place_eq, rfl⟩ := Option.map_eq_some_iff.mp found
    refine ⟨rfl, ⟨line, column, place_eq, rfl, rfl⟩, fun small => ?_⟩
    obtain ⟨line_le, column_le⟩ := lineColumn?_le place_eq
    simp only [place_eq, Location.ofPlace, UInt32.toNat_ofNat_of_lt' (line_le.trans_lt small),
      UInt32.toNat_ofNat_of_lt' (column_le.trans_lt small)]

theorem exists_location? {position : Nat} (splits : Splits source.contents.toList position) :
    ∃ location, source.location? position = some location := by
  obtain ⟨before, after, whole_eq, rfl⟩ := splits
  have inside : byteCount before ≤ source.length := by
    rw [length, whole_eq, byteCount_append]
    exact Nat.le_add_right _ _
  rw [location?, lineColumn?, Nat.min_eq_left inside, whole_eq, splitAtByte?_byteCount]
  exact ⟨_, rfl⟩

private theorem locates_of_splits {span : Span}
    (splits : Splits source.contents.toList span.start) :
    source.Locates span := by
  obtain ⟨location, location_eq⟩ := exists_location? splits
  exact ⟨location, Outcome.promised_eq_ok_iff.mpr location_eq⟩

theorem delivers_accept {α : Type} {answer : Except Rejection α} {accepts : α → Prop}
    (accepted : ∀ value, answer = .ok value → accepts value)
    (refused : ∀ rejection, answer = .error rejection → ∀ position ∈ rejection.position,
      Splits source.contents.toList position) :
    (source.accept answer).Delivers accepts
      fun error => ∃ message, error.cause = .malformed message := by
  cases answer with
  | ok value => exact accepted value rfl
  | error rejection =>
      have splits : Splits source.contents.toList (rejection.position.getD source.length) := by
        cases position_eq : rejection.position with
        | none => exact ⟨source.contents.toList, [], (List.append_nil _).symm, rfl⟩
        | some position => exact refused rejection rfl position position_eq
      obtain ⟨location, location_eq⟩ := exists_location? splits
      simp only [accept, location_eq]
      exact Outcome.Delivers.failAt ⟨rejection.message, rfl⟩

/-- Lexing gives tokens that can be located, or it refuses the text. -/
theorem delivers_tokens (source : Source) :
    source.tokens.Delivers (fun tokens => Placed source source.length tokens ∧
      ∀ token ∈ tokens, Splits source.contents.toList token.span.start)
      fun error => ∃ message, error.cause = .malformed message := by
  have lexes := Token.lexes_scan source.contents
  refine delivers_accept (fun tokens scanned => ?_) fun rejection scanned position found => ?_
  · rw [scanned] at lexes
    have splits : ∀ token ∈ tokens, Splits source.contents.toList token.span.start :=
      fun token member => (lexes token member).splits
    exact ⟨⟨(Token.length_scanFrom_le scanned).trans (length_le_byteCount _),
      fun token member => locates_of_splits (splits token member)⟩, splits⟩
  · rw [scanned] at lexes
    obtain ⟨place, place_eq, splits⟩ := lexes
    obtain rfl := Option.some.inj (place_eq.symm.trans found)
    exact splits

/-- Parsing gives a program whose parts can be located, or it refuses the text. -/
theorem delivers_program (source : Source) :
    source.program.Delivers (fun program => program.Located source source.length)
      fun error => ∃ message, error.cause = .malformed message := by
  refine source.delivers_tokens.bind fun tokens _ lexed => ?_
  refine delivers_accept (fun program success => ?_) fun rejection failure position found => ?_
  · exact (Program.spells_of_ofTokens success).located lexed.1
  · obtain ⟨token, member, start_eq⟩ := Program.exists_start_of_error failure position found
    exact start_eq ▸ lexed.2 token member

end Source

end TensorLang
