import TensorLang.Proofs.Failing
import TensorLang.Proofs.Program.Grammar

/-!
# What the parsers read

Each parser reads a construct of the grammar and leaves the tokens after it, or blames one of the
tokens that it was given.  The parsers are taken apart along the combinators that they are built
from; a loop is followed by induction on its bound.
-/

namespace TensorLang

/-- If the text is refused at a place, a token with the property starts there. -/
def Rejection.Blames (holds : Token → Prop) (rejection : Rejection) : Prop :=
  ∀ position ∈ rejection.position, ∃ token, holds token ∧ token.span.start = position

namespace Parser

variable {α β : Type} {holds : Token → Prop} {tokens : List Token}

/-- The answer takes what `accepts` allows off the front of the tokens, or it blames a token. -/
def Answers (holds : Token → Prop) (tokens : List Token) (accepts : α → List Token → Prop) :
    Except Rejection (α × List Token) → Prop
  | .ok (value, rest) => ∃ used, tokens = used ++ rest ∧ accepts value used
  | .error rejection => rejection.Blames holds

/-- From tokens with a property, the parser reads what `accepts` allows, or it blames one of the
tokens. -/
def Delivers (holds : Token → Prop) (parser : Parser α) (tokens : List Token)
    (accepts : α → List Token → Prop) : Prop :=
  (∀ token ∈ tokens, holds token) → Answers holds tokens accepts (parser tokens)

namespace Delivers

variable {first : Parser α} {next : α → Parser β}
variable {reads : α → List Token → Prop} {accepts : β → List Token → Prop}

theorem bind (early : Delivers holds first tokens reads)
    (late : ∀ value used rest, tokens = used ++ rest → reads value used →
      Delivers holds (next value) rest fun result more => accepts result (used ++ more)) :
    Delivers holds (first >>= next) tokens accepts := by
  intro all
  have started := early all
  change Answers holds tokens accepts (first tokens >>= fun found => next found.1 found.2)
  cases first_eq : first tokens with
  | error rejection =>
      rw [first_eq] at started
      exact started
  | ok found =>
      obtain ⟨value, rest⟩ := found
      rw [first_eq] at started
      obtain ⟨used, rfl, read⟩ := started
      have ended := late value used rest rfl read fun token member => all token (by simp [member])
      change Answers holds (used ++ rest) accepts (next value rest)
      cases next_eq : next value rest with
      | error rejection =>
          rw [next_eq] at ended
          exact ended
      | ok found =>
          rw [next_eq] at ended
          obtain ⟨more, rfl, accepted⟩ := ended
          exact ⟨used ++ more, by simp, accepted⟩

theorem mono {parser : Parser β} {weaker : β → List Token → Prop}
    (delivers : Delivers holds parser tokens accepts)
    (weaken : ∀ value used, accepts value used → weaker value used) :
    Delivers holds parser tokens weaker := by
  intro all
  have answered := delivers all
  cases parsed : parser tokens with
  | error rejection =>
      rw [parsed] at answered
      exact answered
  | ok found =>
      rw [parsed] at answered
      obtain ⟨used, tokens_eq, accepted⟩ := answered
      exact ⟨used, tokens_eq, weaken _ used accepted⟩

theorem pure {value : β} (accepted : accepts value []) :
    Delivers holds (Pure.pure value : Parser β) tokens accepts :=
  fun _ => ⟨[], rfl, accepted⟩

theorem map {change : α → β}
    (each : Delivers holds first tokens fun value used => accepts (change value) used) :
    Delivers holds (change <$> first) tokens accepts := by
  have delivers : Delivers holds (first >>= fun value => Pure.pure (change value)) tokens accepts :=
    bind each fun _ _ _ _ accepted => pure (by simpa using accepted)
  exact delivers

theorem refuseAt {token : Token} {message : String} (blamed : holds token) :
    Delivers holds (Parser.refuseAt token message : Parser β) tokens accepts := by
  intro _ position found
  obtain rfl := Option.mem_some.mp found
  exact ⟨token, blamed, rfl⟩

theorem refuseEnd {expected : String} :
    Delivers holds (Parser.refuseEnd expected : Parser β) tokens accepts := by
  intro _ position found
  cases found

theorem get {next : List Token → Parser β} (late : Delivers holds (next tokens) tokens accepts) :
    Delivers holds (get >>= next) tokens accepts :=
  late

/-- The next token is looked at and left in place. -/
theorem peek {expected : String} {next : Token → Parser β}
    (late : ∀ token rest, tokens = token :: rest → holds token →
      Delivers holds (next token) tokens accepts) :
    Delivers holds (Parser.peek expected >>= next) tokens accepts := by
  cases tokens with
  | nil => exact refuseEnd (β := β)
  | cons token rest => exact fun all => late token rest rfl (all token (by simp)) all

/-- A test of the next token leaves it in place. -/
theorem isNext {kind : TokenKind} {next : Bool → Parser β}
    (late : ∀ found, (found = true → ∃ token rest, tokens = token :: rest ∧ token.kind = kind) →
      Delivers holds (next found) tokens accepts) :
    Delivers holds (Parser.isNext kind >>= next) tokens accepts := by
  change Delivers holds (next (tokens.head?.any fun token => token.kind == kind)) tokens accepts
  refine late _ fun found => ?_
  cases tokens with
  | nil => cases found
  | cons token rest => exact ⟨token, rest, rfl, by simpa using found⟩

/-- The next token is dropped. -/
theorem skip {token : Token} {rest : List Token} {next : Unit → Parser β}
    (late : Delivers holds (next ()) rest fun value more => accepts value (token :: more)) :
    Delivers holds (Parser.skip >>= next) (token :: rest) accepts := by
  have dropped : Delivers holds Parser.skip (token :: rest) fun _ used => used = [token] :=
    fun _ => ⟨[token], rfl, rfl⟩
  refine dropped.bind ?_
  rintro _ _ rest' tokens_eq rfl
  obtain rfl := (List.cons.inj tokens_eq).2
  exact late

end Delivers

/-- The parser reads a construct of the category, or it blames one of the tokens. -/
def Reads (holds : Token → Prop) (category : Category) (parser : Parser category.Tree) : Prop :=
  ∀ tokens, Delivers holds parser tokens fun tree used => Spells category used tree

theorem reads_some {category : Category} {parser : Parser category.Tree}
    (each : Reads holds category parser) : Reads holds (.optional category) (some <$> parser) :=
  fun tokens => .map ((each tokens).mono fun _ _ => .present)

/-! ### Single tokens -/

theorem delivers_next {expected : String} :
    Delivers holds (next expected) tokens fun token used => used = [token] ∧ holds token := by
  refine .peek fun token rest tokens_eq held => ?_
  subst tokens_eq
  exact .skip (.pure ⟨rfl, held⟩)

theorem delivers_expect {kind : TokenKind} {expected : String} :
    Delivers holds (expect kind expected) tokens
      fun token used => used = [token] ∧ token.kind = kind ∧ holds token := by
  refine delivers_next.bind fun token used rest _ ⟨used_eq, held⟩ => ?_
  split
  · rename_i same
    exact .pure ⟨by simp [used_eq], same, held⟩
  · exact .refuseAt held

theorem delivers_identifier : Delivers holds identifier tokens fun name used =>
    ∃ token, used = [token] ∧ token.kind = .identifier ∧ token.identifier = name := by
  refine delivers_expect.bind fun token used _ _ ⟨used_eq, name, _⟩ => .pure ?_
  exact ⟨token, by simp [used_eq], name, rfl⟩

theorem reads_identifier : Reads holds .identifier identifier := by
  refine fun _ => delivers_identifier.mono fun name used ⟨token, used_eq, name_kind, name_eq⟩ => ?_
  subst used_eq name_eq
  exact .identifier name_kind

theorem reads_dimension : Reads holds .dimension dimension := by
  refine fun _ => delivers_expect.bind fun token used _ _ ⟨used_eq, number, held⟩ => ?_
  subst used_eq
  split
  · rename_i value found
    obtain ⟨-, digits, small, rfl⟩ := parseNatural?_eq_some_iff.mp found
    exact .pure (.dimension number digits small)
  · exact .refuseAt held

/-! ### Lists -/

section Lists

variable {item : Category} {parser : Parser item.Tree}

private theorem delivers_moreItems (each : Reads holds item parser) (bound : Nat)
    (tokens : List Token) :
    Delivers holds (moreItems parser bound) tokens fun trees used =>
      ∀ front first, Spells item front first →
        Spells (.separated item) (front ++ used) (first :: trees) := by
  induction bound generalizing tokens with
  | zero => exact .pure fun front first spelled => by simpa using Spells.last spelled
  | succ bound induction =>
      refine .isNext fun found next_is => ?_
      split
      · rename_i yes
        obtain ⟨comma, rest, rfl, separates⟩ := next_is yes
        refine .skip ((each _).bind fun second before _ _ second_spelled => ?_)
        refine (induction _).bind fun trees after _ _ rest_spelled => .pure ?_
        intro front first first_spelled
        simpa using first_spelled.further separates (rest_spelled before second second_spelled)
      · exact .pure fun front first spelled => by simpa using Spells.last spelled

theorem reads_commaSeparated (each : Reads holds item parser) :
    Reads holds (.separated item) (commaSeparated parser) := by
  refine fun _ => (each _).bind fun first front rest _ first_spelled => ?_
  have more := delivers_moreItems each rest.length rest
  refine more.bind (α := List item.Tree) fun trees used _ _ rest_spelled => .pure ?_
  simpa using rest_spelled front first first_spelled

/-- The tokens are a list in parentheses, the last of which is the given one. -/
def Encloses (item : Category) (trees : List item.Tree) (closing : Token) (tokens : List Token) :
    Prop :=
  ∃ opening inside, tokens = opening :: inside ++ [closing] ∧ opening.kind = .openParen ∧
    closing.kind = .closeParen ∧ Spells (.listed item) inside trees

theorem delivers_parenthesized (each : Reads holds item parser) :
    Delivers holds (parenthesized parser) tokens fun found used =>
      Encloses item found.1 found.2 used := by
  refine delivers_expect.bind fun opening used _ _ ⟨used_eq, opens, _⟩ => ?_
  subst used_eq
  have closed : ∀ (trees : List item.Tree) inside, Spells (.listed item) inside trees →
      ∀ tokens, Delivers holds (do return (trees, ← expect .closeParen (quoteName ")"))) tokens
        fun found used => Encloses item found.1 found.2 ([opening] ++ (inside ++ used)) := by
    intro trees inside spelled tokens
    refine delivers_expect.bind fun closing used _ _ ⟨used_eq, closes, _⟩ => .pure ?_
    subst used_eq
    exact ⟨opening, inside, by simp, opens, closes, spelled⟩
  refine .isNext fun _ _ => ?_
  split
  · exact closed [] [] .unlisted _
  · exact (reads_commaSeparated each _).bind fun trees inside _ _ spelled =>
      closed trees inside (.listed spelled) _

end Lists

/-! ### Literals -/

private theorem reads_literalOf {element : Parser Literal} (each : Reads holds .literal element) :
    Reads holds .literal (literalOf element) := by
  refine fun _ => delivers_next.bind fun token used _ _ ⟨used_eq, held⟩ => ?_
  subst used_eq
  split
  · rename_i number
    split
    · rename_i value found
      have value_eq : token.number = value := by rw [Token.number, found, Option.getD_some]
      exact .pure (value_eq ▸ .number number)
    · exact .refuseAt held
  · rename_i opens
    refine (reads_commaSeparated each _).bind fun elements inside _ _ spelled => ?_
    refine delivers_expect.bind fun closing used _ _ ⟨used_eq, closes, _⟩ => .pure ?_
    subst used_eq
    exact .array opens spelled closes
  · exact .refuseAt held

private theorem reads_literalWithin (depth : Nat) : Reads holds .literal (literalWithin depth) := by
  induction depth with
  | zero => exact fun _ => .refuseEnd
  | succ depth induction => exact reads_literalOf induction

private theorem reads_literal : Reads holds .literal literal :=
  fun tokens => reads_literalWithin tokens.length tokens

/-! ### Expressions -/

section Chains

variable {operand : Parser Expression} {operator? : TokenKind → Option Operator}
variable {links whole : List Token → Expression → Prop}

/-- An operator with an operand to its right goes on with any chain to its left. -/
def Joins (operator? : TokenKind → Option Operator) (links whole : List Token → Expression → Prop) :
    Prop :=
  ∀ {before after : List Token} {left right : Expression} {sign : Token} {operator : Operator},
    whole before left → operator? sign.kind = some operator → links after right →
      whole (before ++ sign :: after)
        (.binary (left.span.to right.span) left operator sign.span right)

private theorem delivers_chainFrom
    (each : ∀ tokens, Delivers holds operand tokens fun tree used => links used tree)
    (joins : Joins operator? links whole) {left : Expression} {front : List Token}
    (spelled : whole front left) (bound : Nat) :
    Delivers holds (chainFrom operand operator? left bound) tokens fun tree used =>
      whole (front ++ used) tree := by
  induction bound generalizing left front tokens with
  | zero => exact .pure (by simpa using spelled)
  | succ bound induction =>
      refine .get ?_
      cases tokens with
      | nil => exact .pure (by simpa using spelled)
      | cons sign rest =>
          dsimp only
          split
          · exact .pure (by simpa using spelled)
          · rename_i operator found
            refine .skip ((each _).bind fun right after _ _ right_spelled => ?_)
            simpa using induction (joins spelled found right_spelled)

theorem delivers_chain
    (each : ∀ tokens, Delivers holds operand tokens fun tree used => links used tree)
    (joins : Joins operator? links whole)
    (starts : ∀ {used tree}, links used tree → whole used tree) :
    Delivers holds (chain operand operator?) tokens fun tree used => whole used tree :=
  (each _).bind fun _ _ rest _ spelled => delivers_chainFrom each joins (starts spelled) rest.length

private theorem joins_productOperator? :
    Joins productOperator? (Spells .primary) (Spells .term) := by
  intro before after left right sign operator front found back
  unfold productOperator? at found
  split at found
  · rename_i asterisk
    exact Option.some.inj found ▸ front.multiply asterisk back
  · rename_i atSign
    exact Option.some.inj found ▸ front.matmul atSign back
  · cases found

private theorem joins_sumOperator? : Joins sumOperator? (Spells .term) (Spells .expression) := by
  intro before after left right sign operator front found back
  unfold sumOperator? at found
  split at found
  · rename_i plus
    exact Option.some.inj found ▸ front.add plus back
  · cases found

end Chains

theorem reads_sumOf {operand : Parser Expression} (each : Reads holds .primary operand) :
    Reads holds .expression (sumOf operand) :=
  fun _ => delivers_chain
    (fun _ => delivers_chain each joins_productOperator? .factor) joins_sumOperator? .summand

private theorem reads_operandOf {inner : Parser Expression} (each : Reads holds .expression inner) :
    Reads holds .primary (operandOf inner) := by
  refine fun tokens => .peek fun first rest tokens_eq held => ?_
  have constant : Delivers holds (do return .literal (← literal)) tokens fun tree used =>
      Spells .primary used tree :=
    (reads_literal _).bind fun value used _ _ spelled => .pure (by simpa using spelled.constant)
  split
  · exact constant
  · exact constant
  · rename_i opens
    subst tokens_eq
    refine .skip ((each _).bind fun expression inside _ _ spelled => ?_)
    refine delivers_expect.bind fun closing used _ _ ⟨used_eq, closes, _⟩ => .pure ?_
    subst used_eq
    exact .group opens spelled closes
  · refine delivers_identifier.bind fun _ used _ _ ⟨callee, used_eq, name, name_eq⟩ => ?_
    subst used_eq name_eq
    refine .isNext fun _ _ => ?_
    split
    · split
      · exact .refuseAt held
      · rename_i other
        refine (delivers_parenthesized each).bind fun (arguments, closing) used _ _ enclosed => ?_
        obtain ⟨opening, inside, used_eq, opens, closes, spelled⟩ := enclosed
        subst used_eq
        exact .pure (by simpa using .call name other opens spelled closes)
    · exact .pure (.variable (.identifier name))
  · exact .refuseAt held

private theorem reads_operandWithin (depth : Nat) : Reads holds .primary (operandWithin depth) := by
  induction depth with
  | zero => exact fun _ => .refuseEnd
  | succ depth induction => exact reads_operandOf (reads_sumOf induction)

theorem reads_expression : Reads holds .expression expression :=
  fun tokens => reads_sumOf (reads_operandWithin tokens.length) tokens

/-! ### Statements -/

private theorem reads_shapeClause : Reads holds .shape shapeClause := by
  refine fun _ => delivers_expect.bind fun opening used _ _ ⟨used_eq, opens, _⟩ => ?_
  subst used_eq
  refine (reads_commaSeparated reads_dimension _).bind fun dimensions inside _ _ spelled => ?_
  refine delivers_expect.bind fun closing used _ _ ⟨used_eq, closes, _⟩ => .pure ?_
  subst used_eq
  exact .shape opens spelled closes

/-- A semicolon makes a statement of the tokens. -/
def Completes (start : Span) (action : Action) (tokens : List Token) : Prop :=
  ∀ semicolon : Token, semicolon.kind = .semicolon →
    Spells .statement (tokens ++ [semicolon]) ⟨start.to semicolon.span, action⟩

private theorem delivers_declaration : Delivers holds declaration tokens fun declaration used =>
    Completes declaration.span (.declare declaration) used := by
  refine delivers_expect.bind fun keyword used _ _ ⟨used_eq, starts, _⟩ => ?_
  subst used_eq
  refine delivers_identifier.bind fun _ used after _ ⟨name, used_eq, named, name_eq⟩ => ?_
  subst used_eq name_eq
  refine .isNext fun _ _ => ?_
  extract_lets rest
  have initialized : ∀ shape before, Spells (.optional .shape) before shape → ∀ tokens,
      Delivers holds (rest shape) tokens fun declaration used =>
        Completes declaration.span (.declare declaration)
          ([keyword] ++ ([name] ++ (before ++ used))) := by
    intro shape before shaped tokens
    refine delivers_next.bind fun equals used _ _ ⟨used_eq, held⟩ => ?_
    subst used_eq
    split
    · rename_i initializes
      refine (reads_expression _).bind fun value used _ _ inside => .pure fun semicolon ends => ?_
      simpa [Span.to] using Spells.declare starts named shaped initializes inside ends
    · exact .refuseAt held
  split
  · exact (reads_some reads_shapeClause _).bind fun shape before _ _ shaped =>
      initialized shape before shaped _
  · exact initialized none [] .absent _

theorem startsPrint_cons_cons {word opening : Token} {rest : List Token} :
    startsPrint (word :: opening :: rest) = true ↔
      word.text = "print" ∧ opening.kind = .openParen := by
  simp [startsPrint]

private theorem delivers_action : Delivers holds action tokens fun found used =>
    Completes found.1 found.2 used := by
  refine .peek fun first rest tokens_eq held => ?_
  split
  · refine delivers_declaration.bind fun declaration used _ _ completes => .pure ?_
    simpa using completes
  · rename_i starts
    subst tokens_eq
    refine .skip (.isNext fun _ _ => ?_)
    split
    · exact .pure fun semicolon ends => .leave starts .absent ends
    · refine (reads_some reads_expression _).bind fun value used _ _ inside =>
        .pure fun semicolon ends => ?_
      simpa using Spells.leave starts inside ends
  · refine .get ?_
    split
    · rename_i prints
      subst tokens_eq
      cases rest with
      | nil => cases prints
      | cons opening rest =>
          replace prints := (startsPrint_cons_cons.mp prints).1
          refine .skip (delivers_expect.bind fun opening used _ _ ⟨used_eq, opens, _⟩ => ?_)
          subst used_eq
          refine (reads_expression _).bind fun value inside _ _ spelled => ?_
          refine delivers_expect.bind fun closing used _ _ ⟨used_eq, closes, _⟩ => .pure ?_
          subst used_eq
          intro semicolon ends
          simpa using Spells.print prints opens spelled closes ends
    · refine (reads_expression _).bind fun expression used _ _ spelled => .pure ?_
      intro semicolon ends
      simpa using spelled.evaluate ends

private theorem reads_statement : Reads holds .statement statement := by
  refine fun _ => delivers_action.bind fun (start, action) front _ _ completes => ?_
  refine delivers_expect.bind fun semicolon used _ _ ⟨used_eq, ends, _⟩ => .pure ?_
  subst used_eq
  simpa using completes semicolon ends

private theorem reads_statements (bound : Nat) :
    Reads holds (.many .statement) (statements bound) := by
  induction bound with
  | zero => exact fun _ => .refuseEnd
  | succ bound induction =>
      refine fun _ => .peek fun first _ _ _ => ?_
      split
      · exact .pure .none
      · refine (reads_statement _).bind fun first front _ _ first_spelled => ?_
        refine (induction _).bind fun rest back _ _ rest_spelled => .pure ?_
        simpa using first_spelled.more rest_spelled

/-! ### Functions -/

private theorem reads_block : Reads holds .block block := by
  refine fun _ => delivers_expect.bind fun opening used rest _ ⟨used_eq, opens, _⟩ => .get ?_
  subst used_eq
  refine (reads_statements rest.length rest).bind fun statements inside _ _ spelled => ?_
  refine delivers_expect.bind fun closing used _ _ ⟨used_eq, closes, _⟩ => .pure ?_
  subst used_eq
  exact .block opens spelled closes

private theorem reads_functionDefinition : Reads holds .function functionDefinition := by
  refine fun _ => delivers_next.bind fun keyword used _ _ ⟨used_eq, held⟩ => ?_
  subst used_eq
  split
  · rename_i starts
    refine delivers_identifier.bind fun _ used _ _ ⟨name, used_eq, named, name_eq⟩ => ?_
    subst used_eq name_eq
    refine (delivers_parenthesized reads_identifier).bind
      fun (parameters, closing) used _ _ ⟨opening, inside, used_eq, opens, closes, declared⟩ => ?_
    subst used_eq
    refine (reads_block _).bind fun body after _ _ defined => .pure ?_
    simpa using .function starts named opens declared closes defined
  · exact .refuseAt held

private theorem delivers_functionDefinitions {bound : Nat} (enough : tokens.length ≤ bound) :
    Delivers holds (functionDefinitions bound) tokens fun trees used =>
      used = tokens ∧ Spells (.many .function) used trees := by
  induction bound generalizing tokens with
  | zero =>
      obtain rfl := List.length_eq_zero_iff.mp (Nat.le_zero.mp enough)
      exact .pure ⟨rfl, .none⟩
  | succ bound induction =>
      refine .get ?_
      split
      · rename_i empty
        exact .pure ⟨(List.isEmpty_iff.mp empty).symm, .none⟩
      · refine (reads_functionDefinition _).bind fun first front rest tokens_eq first_spelled => ?_
        have progress : 0 < front.length := by cases first_spelled; simp
        have fewer : rest.length ≤ bound := by
          rw [tokens_eq, List.length_append] at enough
          omega
        refine (induction fewer).bind
          fun trees back after rest_eq ⟨used_eq, rest_spelled⟩ => .pure ?_
        subst used_eq
        exact ⟨by simp [tokens_eq], by simpa using first_spelled.more rest_spelled⟩

theorem delivers_program : Delivers holds program tokens fun program used =>
    used = tokens ∧ Spells (.many .function) used program.functions :=
  .get ((delivers_functionDefinitions (Nat.le_refl _)).bind fun trees used _ _ ⟨used_eq, spelled⟩ =>
    .pure ⟨by simpa using used_eq, by simpa using spelled⟩)

/-- A parsed program is derived from all tokens. -/
theorem spells_of_program {program : Program} {rest : List Token}
    (parsed : Parser.program tokens = .ok (program, rest)) :
    rest = [] ∧ Spells (.many .function) tokens program.functions := by
  have delivered : Answers (fun _ => True) tokens _ (Parser.program tokens) :=
    delivers_program (by simp)
  rw [parsed] at delivered
  obtain ⟨used, tokens_eq, used_eq, spelled⟩ := delivered
  subst used_eq
  exact ⟨by simpa using tokens_eq, spelled⟩

end Parser

end TensorLang
