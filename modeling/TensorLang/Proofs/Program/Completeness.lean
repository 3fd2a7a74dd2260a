import TensorLang.Proofs.Program.Parsing
import TensorLang.Proofs.Program.Scanning

/-!
# What the grammar derives is read

A construct is taken off the front of the tokens, whatever follows it, as long as what follows does
not go on with it.  The proof is one induction over derivations for the constructs that nest, from
literals to expressions; statements, blocks and functions are put together from them.
-/

namespace TensorLang

namespace Parser

/-! ### Steps -/

section Steps

variable {α β : Type} {first : Parser α} {value : α} {tokens rest : List Token} {token : Token}
variable {kind : TokenKind} {expected : String}

theorem bind_eq {next : α → Parser β} (first_eq : first tokens = .ok (value, rest)) :
    (first >>= next) tokens = next value rest := by
  change (first tokens >>= fun found => next found.1 found.2) = _
  rw [first_eq]
  rfl

theorem map_eq {change : α → β} (first_eq : first tokens = .ok (value, rest)) :
    (change <$> first) tokens = .ok (change value, rest) := by
  change (do let (value, rest) ← first tokens; return (change value, rest) : Except _ _) = _
  rw [first_eq]
  rfl

theorem bind_get {next : List Token → Parser β} : (get >>= next) tokens = next tokens tokens := rfl

theorem bind_peek {next : Token → Parser β} :
    (peek expected >>= next) (token :: rest) = next token (token :: rest) := rfl

theorem bind_skip {next : Unit → Parser β} : (skip >>= next) (token :: rest) = next () rest := rfl

theorem bind_next {next : Token → Parser β} :
    (Parser.next expected >>= next) (token :: rest) = next token rest := rfl

theorem bind_isNext {next : Bool → Parser β} :
    (isNext kind >>= next) tokens =
      next (tokens.head?.any fun token => token.kind == kind) tokens :=
  rfl

theorem expect_cons (same : token.kind = kind) :
    expect kind expected (token :: rest) = .ok (token, rest) := by
  rw [expect, bind_next, if_pos same]
  rfl

theorem identifier_cons (name : token.kind = .identifier) :
    identifier (token :: rest) = .ok (token.identifier, rest) := by
  rw [identifier, bind_eq (expect_cons name)]
  rfl

end Steps

/-! ### What may follow -/

/-- The next token, if there is one, is of none of the kinds. -/
def Stops (kinds : List TokenKind) (rest : List Token) : Prop :=
  ∀ token ∈ rest.head?, token.kind ∉ kinds

theorem Stops.mono {kinds fewer : List TokenKind} {rest : List Token} (stops : Stops kinds rest)
    (subset : fewer ⊆ kinds) : Stops fewer rest :=
  fun token next member => stops token next (subset member)

theorem stops_cons {kinds : List TokenKind} {token : Token} {rest : List Token} :
    Stops kinds (token :: rest) ↔ token.kind ∉ kinds := by
  simp [Stops]

theorem Stops.isNext {kinds : List TokenKind} {kind : TokenKind} {rest : List Token}
    (stops : Stops kinds rest) (member : kind ∈ kinds) :
    (rest.head?.any fun token => token.kind == kind) = false := by
  cases rest with
  | nil => rfl
  | cons token rest =>
      have other : token.kind ≠ kind := fun same => stops token rfl (same ▸ member)
      simpa using other

/-- With room for all tokens, the parser takes the used ones if what follows does not start with any
of the kinds. -/
def Takes {α : Type} (parser : Nat → Parser α) (kinds : List TokenKind) (used : List Token)
    (tree : α) : Prop :=
  ∀ room rest, (used ++ rest).length ≤ room → Stops kinds rest →
    parser room (used ++ rest) = .ok (tree, rest)

/-! ### Lists -/

section Lists

variable {α : Type} {item : Parser α} {rest : List Token}

private theorem moreItems_of_stops {kinds : List TokenKind} (stops : Stops kinds rest)
    (comma : .comma ∈ kinds) (bound : Nat) : moreItems item bound rest = .ok ([], rest) := by
  cases bound with
  | zero => rfl
  | succ bound =>
      rw [moreItems, bind_isNext, stops.isNext comma]
      rfl

private theorem moreItems_cons {comma : Token} {tokens middle : List Token} {first : α}
    {more : List α}
    {bound : Nat} (separates : comma.kind = .comma) (first_eq : item tokens = .ok (first, middle))
    (more_eq : moreItems item bound middle = .ok (more, rest)) :
    moreItems item (bound + 1) (comma :: tokens) = .ok (first :: more, rest) := by
  rw [moreItems, bind_isNext]
  simp only [List.head?_cons, Option.any_some, separates, BEq.rfl, ↓reduceIte]
  rw [bind_skip, bind_eq first_eq, bind_eq more_eq]
  rfl

/-- The tokens are further items, each after a comma. -/
def TakesMore (parser : Nat → Parser α) (kinds : List TokenKind) (used : List Token)
    (more : List α) : Prop :=
  ∀ room bound rest, (used ++ rest).length ≤ room → used.length ≤ bound →
    Stops (.comma :: kinds) rest → moreItems (parser room) bound (used ++ rest) = .ok (more, rest)

/-- The tokens are an item and further items. -/
def TakesList (parser : Nat → Parser α) (kinds : List TokenKind) (used : List Token)
    (trees : List α) : Prop :=
  ∃ front first back more, used = front ++ back ∧ trees = first :: more ∧
    Takes parser kinds front first ∧ TakesMore parser kinds back more ∧
      ∀ token ∈ back.head?, token.kind = .comma

variable {parser : Nat → Parser α} {kinds : List TokenKind} {used : List Token} {trees : List α}

theorem takesList_last {tree : α} (takes : Takes parser kinds used tree) :
    TakesList parser kinds used [tree] := by
  refine ⟨used, tree, [], [], by simp, rfl, takes, ?_, by simp⟩
  intro room bound rest _ _ stops
  exact moreItems_of_stops stops (by simp) bound

theorem stops_append {back : List Token} (comma : .comma ∉ kinds)
    (starts : ∀ token ∈ back.head?, token.kind = .comma) (stops : Stops (.comma :: kinds) rest) :
    Stops kinds (back ++ rest) := by
  cases back with
  | nil => exact stops.mono (by simp)
  | cons token back =>
      have separates : token.kind = .comma := starts token rfl
      simpa [stops_cons, separates] using comma

theorem takesList_further {separator : Token} {before after : List Token} {first : α}
    (comma : .comma ∉ kinds) (takes : Takes parser kinds before first)
    (separates : separator.kind = .comma) (list : TakesList parser kinds after trees) :
    TakesList parser kinds (before ++ separator :: after) (first :: trees) := by
  obtain ⟨front, second, back, more, rfl, rfl, takes_second, takes_more, starts⟩ := list
  refine ⟨before, first, _, _, rfl, rfl, takes, ?_, by simpa using separates⟩
  intro room bound rest fits enough stops
  simp only [List.cons_append, List.append_assoc, List.length_cons,
    List.length_append] at fits enough ⊢
  obtain ⟨bound, rfl⟩ : ∃ fewer, bound = fewer + 1 := ⟨bound - 1, by omega⟩
  refine moreItems_cons separates
    (takes_second room _ (by simp; omega) (stops_append comma starts stops)) ?_
  exact takes_more room bound rest (by simp; omega) (by omega) stops

/-- The items are taken with the commas between them. -/
theorem TakesList.takes (list : TakesList parser kinds used trees) (comma : .comma ∉ kinds) :
    Takes (fun room => commaSeparated (parser room)) (.comma :: kinds) used trees := by
  obtain ⟨front, first, back, more, rfl, rfl, takes, takes_more, starts⟩ := list
  intro room rest fits stops
  simp only [List.append_assoc, List.length_append] at fits ⊢
  rw [commaSeparated, bind_eq (takes room _ (by simp; omega) (stops_append comma starts stops)),
    bind_get, bind_eq (takes_more room _ rest (by simp; omega) (by simp) stops)]
  rfl

end Lists

/-! ### Chains -/

section Chains

variable {operand : Nat → Parser Expression} {operator? : TokenKind → Option Operator}
variable {kinds : List TokenKind} {used : List Token} {tree : Expression}

/-- The chain that starts with the used tokens goes on from the tree. -/
def Chains (operand : Nat → Parser Expression) (operator? : TokenKind → Option Operator)
    (kinds : List TokenKind) (used : List Token) (tree : Expression) : Prop :=
  ∀ room rest, (used ++ rest).length ≤ room → Stops kinds rest →
    ∃ bound, rest.length ≤ bound ∧ chain (operand room) operator? (used ++ rest) =
      chainFrom (operand room) operator? tree bound rest

theorem chains_first (takes : Takes operand kinds used tree) :
    Chains operand operator? kinds used tree := by
  intro room rest fits stops
  refine ⟨rest.length, le_rfl, ?_⟩
  rw [chain, bind_eq (takes room rest fits stops), bind_get]

private theorem chainFrom_cons {parser : Parser Expression} {left right : Expression} {sign : Token}
    {operator : Operator} {bound : Nat} {tokens rest : List Token}
    (joins : operator? sign.kind = some operator) (right_eq : parser tokens = .ok (right, rest)) :
    chainFrom parser operator? left (bound + 1) (sign :: tokens) =
      chainFrom parser operator? (.binary (left.span.to right.span) left operator sign.span right)
        bound rest := by
  rw [chainFrom, bind_get]
  simp only [joins]
  rw [bind_skip, bind_eq right_eq]

private theorem chainFrom_of_stops {parser : Parser Expression} {left : Expression} {bound : Nat}
    {rest : List Token} (stops : ∀ token ∈ rest.head?, operator? token.kind = none) :
    chainFrom parser operator? left bound rest = .ok (left, rest) := by
  cases bound with
  | zero => rfl
  | succ bound =>
      rw [chainFrom, bind_get]
      cases rest with
      | nil => rfl
      | cons token rest =>
          simp only [stops token rfl]
          rfl

theorem chains_binary {sign : Token} {operator : Operator} {before after : List Token}
    {left right : Expression} (front : Chains operand operator? kinds before left)
    (joins : operator? sign.kind = some operator) (other : sign.kind ∉ kinds)
    (back : Takes operand kinds after right) :
    Chains operand operator? kinds (before ++ sign :: after)
      (.binary (left.span.to right.span) left operator sign.span right) := by
  intro room rest fits stops
  simp only [List.append_assoc, List.cons_append, List.length_append, List.length_cons] at fits ⊢
  obtain ⟨bound, enough, chain_eq⟩ :=
    front room (sign :: (after ++ rest)) (by simp; omega) (stops_cons.mpr other)
  simp only [List.length_cons, List.length_append] at enough
  obtain ⟨bound, rfl⟩ : ∃ fewer, bound = fewer + 1 := ⟨bound - 1, by omega⟩
  refine ⟨bound, by omega, ?_⟩
  rw [chain_eq, chainFrom_cons joins (back room rest (by simp; omega) stops)]

/-- A chain ends where no operator follows. -/
theorem Chains.takes (chains : Chains operand operator? kinds used tree) {more : List TokenKind}
    (subset : kinds ⊆ more) (operators : ∀ kind, (operator? kind).isSome → kind ∈ more) :
    Takes (fun room => chain (operand room) operator?) more used tree := by
  intro room rest fits stops
  obtain ⟨bound, -, chain_eq⟩ := chains room rest fits (stops.mono subset)
  refine chain_eq.trans (chainFrom_of_stops fun token next => ?_)
  have missing : token.kind ∉ more := stops token next
  exact Option.not_isSome_iff_eq_none.mp fun joins => missing (operators _ joins)

end Chains

end Parser

/-! ### What constructs start with -/

/-- The kinds of the tokens that a construct starts with, for the constructs that are never empty
and start with a class of tokens. -/
def Category.starts : Category → List TokenKind
  | .identifier => [.identifier]
  | .dimension => [.number]
  | .literal => [.number, .openBracket]
  | .primary | .term | .expression => [.number, .openBracket, .identifier, .openParen]
  | .shape => [.lessThan]
  | .block => [.openBrace]
  | .function => [.keyword .defWord, .keyword .funcWord]
  | .separated item => item.starts
  | .statement | .optional _ | .listed _ | .many _ => []

/-- There is a first token, and it is of one of the kinds. -/
def Starts (kinds : List TokenKind) (used : List Token) : Prop :=
  ∃ token ∈ used.head?, token.kind ∈ kinds

theorem starts_cons {kinds : List TokenKind} {token : Token} {used : List Token} :
    Starts kinds (token :: used) ↔ token.kind ∈ kinds := by
  simp [Starts]

theorem Starts.append {kinds : List TokenKind} {used : List Token} (starts : Starts kinds used)
    (more : List Token) : Starts kinds (used ++ more) := by
  obtain ⟨token, next, member⟩ := starts
  exact ⟨token, by simp [Option.mem_def.mp next], member⟩

theorem Starts.mono {kinds more : List TokenKind} {used : List Token} (starts : Starts kinds used)
    (subset : kinds ⊆ more) : Starts more used :=
  let ⟨token, next, member⟩ := starts
  ⟨token, next, subset member⟩

theorem Starts.exists_cons {kinds : List TokenKind} {used : List Token}
    (starts : Starts kinds used) : ∃ token rest, used = token :: rest ∧ token.kind ∈ kinds := by
  obtain ⟨token, next, member⟩ := starts
  cases used with
  | nil => cases next
  | cons first rest => exact ⟨first, rest, rfl, Option.some.inj next ▸ member⟩

theorem Spells.starts {category : Category} {used : List Token} {tree : category.Tree}
    (spelled : Spells category used tree) (filled : category.starts ≠ []) :
    Starts category.starts used := by
  induction spelled with
  | constant _ induction =>
      exact (induction (by simp [Category.starts])).mono (by simp [Category.starts])
  | «variable» _ induction =>
      exact (induction (by simp [Category.starts])).mono (by simp [Category.starts])
  | factor _ induction | summand _ induction | last _ induction => exact induction filled
  | multiply _ _ _ induction | matmul _ _ _ induction | add _ _ _ induction
  | further _ _ _ induction =>
      exact (induction filled).append _
  | declare | leave | print | evaluate | absent | present | unlisted | listed | none | more =>
      exact absurd rfl filled
  | «function» starts =>
      rcases starts with starts | starts <;> simp [Starts, Category.starts, starts]
  | _ => simp [Starts, Category.starts, *]

namespace Parser

/-! ### Literals and expressions -/

/-- A term whose parentheses nest no deeper than the room. -/
def termWithin (room : Nat) : Parser Expression := chain (operandWithin room) productOperator?

/-- An expression whose parentheses nest no deeper than the room. -/
def expressionWithin (room : Nat) : Parser Expression := sumOf (operandWithin room)

/-- How a construct that may nest is taken. -/
def Taken : (category : Category) → List Token → category.Tree → Prop
  | .identifier, used, name => Takes (fun _ => identifier) [] used name
  | .dimension, used, value => Takes (fun _ => dimension) [] used value
  | .literal, used, value => Takes literalWithin [] used value
  | .primary, used, tree => Takes operandWithin [.openParen] used tree
  | .term, used, tree => Chains operandWithin productOperator? [.openParen] used tree
  | .expression, used, tree =>
      Chains termWithin sumOperator? [.openParen, .asterisk, .atSign] used tree
  | .separated item, used, trees => ∀ (parser : Nat → Parser item.Tree) kinds, .comma ∉ kinds →
      (∀ used tree, Taken item used tree → Takes parser kinds used tree) →
        TakesList parser kinds used trees
  | .listed item, used, trees => ∀ (parser : Nat → Parser item.Tree) kinds, .comma ∉ kinds →
      (∀ used tree, Taken item used tree → Takes parser kinds used tree) →
        used = [] ∧ trees = [] ∨ TakesList parser kinds used trees
  | _, _, _ => True

theorem takes_termWithin {used : List Token} {tree : Expression} (taken : Taken .term used tree) :
    Takes termWithin [.openParen, .asterisk, .atSign] used tree :=
  taken.takes (by simp) fun kind joins => by
    unfold productOperator? at joins
    split at joins <;> simp at joins ⊢

theorem takes_expressionWithin {used : List Token} {tree : Expression}
    (taken : Taken .expression used tree) :
    Takes expressionWithin [.openParen, .asterisk, .atSign, .plus] used tree :=
  taken.takes (by simp) fun kind joins => by
    unfold sumOperator? at joins
    split at joins <;> simp at joins ⊢

theorem takes_dimension {token : Token} (number : token.kind = .number) {value : Nat}
    (parsed : parseNatural? countBound token.text = some value) :
    Takes (fun _ => dimension) [] [token] value := by
  intro room rest _ _
  change dimension (token :: rest) = _
  rw [dimension, bind_eq (expect_cons number)]
  simp only [parsed]
  rfl

theorem takes_number {token : Token} (number : token.kind = .number)
    (parsed : (parseDouble? token.text).isSome) :
    Takes literalWithin [] [token] (.number token.span token.number) := by
  intro room rest fits _
  obtain ⟨value, value_eq⟩ := Option.isSome_iff_exists.mp parsed
  obtain ⟨room, rfl⟩ : ∃ less, room = less + 1 := ⟨room - 1, by simp at fits; omega⟩
  change literalOf (literalWithin room) (token :: rest) = _
  rw [literalOf, bind_next]
  simp only [number, value_eq, Token.number, Option.getD_some]
  rfl

/-- A construct between two tokens is taken with less room. -/
theorem room_between {opening closing : Token} {tokens rest : List Token} {room : Nat}
    (fits : (opening :: tokens ++ [closing] ++ rest).length ≤ room) :
    ∃ less, room = less + 1 ∧ (tokens ++ closing :: rest).length ≤ less :=
  ⟨room - 1, by simp at fits ⊢; omega⟩

theorem takes_array {opening closing : Token} {tokens : List Token} {elements : List Literal}
    (opens : opening.kind = .openBracket)
    (taken : TakesList literalWithin [] tokens elements) (closes : closing.kind = .closeBracket) :
    Takes literalWithin [] (opening :: tokens ++ [closing])
      (.array (opening.span.to closing.span) elements) := by
  intro room rest fits _
  obtain ⟨room, rfl, inside_fits⟩ := room_between fits
  have elements_eq := taken.takes (by simp) room (closing :: rest) inside_fits
    (by simp [stops_cons, closes])
  change literalOf (literalWithin room) (opening :: tokens ++ [closing] ++ rest) = _
  simp only [List.cons_append, List.append_assoc, List.nil_append]
  rw [literalOf, bind_next]
  simp only [opens]
  rw [bind_eq elements_eq, bind_eq (expect_cons closes)]
  rfl

theorem takes_constant {tokens : List Token} {value : Literal}
    (starts : Starts [.number, .openBracket] tokens) (taken : Takes literalWithin [] tokens value) :
    Takes operandWithin [.openParen] tokens (.literal value) := by
  intro room rest fits stops
  obtain ⟨first, more, rfl, kind⟩ := starts.exists_cons
  obtain ⟨room, rfl⟩ : ∃ less, room = less + 1 := ⟨room - 1, by simp at fits; omega⟩
  have value_eq : literal (first :: more ++ rest) = .ok (value, rest) :=
    taken _ rest le_rfl (stops.mono (by simp))
  have constant : (do return .literal (← literal) : Parser Expression) (first :: more ++ rest) =
      .ok (.literal value, rest) := by
    rw [bind_eq value_eq]
    rfl
  change operandOf (sumOf (operandWithin room)) (first :: more ++ rest) = _
  rw [operandOf, List.cons_append, bind_peek]
  simp only [List.mem_cons, List.not_mem_nil, or_false] at kind
  rcases kind with kind | kind
  · simp only [kind]
    exact constant
  · simp only [kind]
    exact constant

theorem takes_variable {token : Token} (name : token.kind = .identifier) :
    Takes operandWithin [.openParen] [token] (.identifier token.identifier) := by
  intro room rest fits stops
  obtain ⟨room, rfl⟩ : ∃ less, room = less + 1 := ⟨room - 1, by simp at fits; omega⟩
  change operandOf (sumOf (operandWithin room)) (token :: rest) = _
  rw [operandOf, bind_peek]
  simp only [name]
  rw [bind_eq (identifier_cons name), bind_isNext, stops.isNext (by simp)]
  rfl

theorem takes_group {opening closing : Token} {tokens : List Token} {tree : Expression}
    (opens : opening.kind = .openParen) (taken : Taken .expression tokens tree)
    (closes : closing.kind = .closeParen) :
    Takes operandWithin [.openParen] (opening :: tokens ++ [closing]) tree := by
  intro room rest fits _
  obtain ⟨room, rfl, inside_fits⟩ := room_between fits
  have inner_eq : sumOf (operandWithin room) (tokens ++ closing :: rest) =
      .ok (tree, closing :: rest) :=
    takes_expressionWithin taken room _ inside_fits (by simp [stops_cons, closes])
  change operandOf (sumOf (operandWithin room)) (opening :: tokens ++ [closing] ++ rest) = _
  simp only [List.cons_append, List.append_assoc, List.nil_append]
  rw [operandOf, bind_peek]
  simp only [opens]
  rw [bind_skip, bind_eq inner_eq, bind_eq (expect_cons closes)]
  rfl

/-- A list in parentheses is taken up to the closing one, which starts no item. -/
theorem parenthesized_eq {item : Category} {parser : Nat → Parser item.Tree}
    {kinds : List TokenKind} {opening closing : Token} {tokens : List Token}
    {trees : List item.Tree} {room : Nat} (rest : List Token) (opens : opening.kind = .openParen)
    (closes : closing.kind = .closeParen) (spelled : Spells (.listed item) tokens trees)
    (taken : tokens = [] ∧ trees = [] ∨ TakesList parser kinds tokens trees)
    (comma : .comma ∉ kinds) (ends : .closeParen ∉ kinds) (filled : item.starts ≠ [])
    (other : .closeParen ∉ item.starts) (fits : (tokens ++ closing :: rest).length ≤ room) :
    parenthesized (parser room) (opening :: (tokens ++ closing :: rest)) =
      .ok ((trees, closing), rest) := by
  rw [parenthesized, bind_eq (expect_cons opens), bind_isNext]
  cases spelled with
  | unlisted =>
      simp only [List.nil_append, List.head?_cons, Option.any_some, closes, BEq.rfl, ↓reduceIte]
      rw [bind_eq rfl, bind_eq (expect_cons closes)]
      rfl
  | listed whole =>
      obtain ⟨first, more, rfl, kind⟩ := (whole.starts filled).exists_cons
      have unclosed : (first.kind == .closeParen) = false := by
        have differs : first.kind ≠ .closeParen := fun same => other (same ▸ kind)
        simpa using differs
      have list : TakesList parser kinds (first :: more) trees := by simpa using taken
      have trees_eq := list.takes comma room (closing :: rest) fits
        (by simpa [stops_cons, closes] using ends)
      have next_eq : ((first :: more ++ closing :: rest).head?.any
          fun token => token.kind == .closeParen) = false := by simpa using unclosed
      simp only [next_eq, Bool.false_eq_true, ↓reduceIte]
      rw [bind_eq trees_eq, bind_eq (expect_cons closes)]
      rfl

private theorem takes_call {callee opening closing : Token} {tokens : List Token}
    {arguments : List Expression} (name : callee.kind = .identifier) (other : callee.text ≠ "print")
    (opens : opening.kind = .openParen) (spelled : Spells (.listed .expression) tokens arguments)
    (taken : Taken (.listed .expression) tokens arguments)
    (closes : closing.kind = .closeParen) :
    Takes operandWithin [.openParen] (callee :: opening :: tokens ++ [closing])
      (.call (callee.span.to closing.span) callee.identifier arguments) := by
  intro room rest fits _
  obtain ⟨room, rfl⟩ : ∃ less, room = less + 1 := ⟨room - 1, by simp at fits; omega⟩
  have list := taken expressionWithin [.openParen, .asterisk, .atSign, .plus] (by simp)
    fun _ _ => takes_expressionWithin
  have arguments_eq : parenthesized (sumOf (operandWithin room))
      (opening :: (tokens ++ closing :: rest)) = .ok ((arguments, closing), rest) :=
    parenthesized_eq rest opens closes spelled list (by simp) (by simp) (by simp [Category.starts])
      (by simp [Category.starts]) (by simp at fits ⊢; omega)
  have unprinted : callee.identifier.name ≠ "print" := other
  change operandOf (sumOf (operandWithin room))
    (callee :: opening :: tokens ++ [closing] ++ rest) = _
  simp only [List.cons_append, List.append_assoc, List.nil_append]
  rw [operandOf, bind_peek]
  simp only [name]
  rw [bind_eq (identifier_cons name), bind_isNext]
  simp only [List.head?_cons, Option.any_some, opens, BEq.rfl, ↓reduceIte]
  rw [if_neg unprinted, bind_eq arguments_eq]
  rfl

theorem taken_of_spells {whole : List Char} {category : Category} {used : List Token}
    {tree : category.Tree} (spelled : Spells category used tree)
    (cut : ∀ token ∈ used, token.Cut whole) : Taken category used tree := by
  induction spelled with
  | identifier name => exact fun _ _ _ _ => identifier_cons name
  | dimension number digits small =>
      refine takes_dimension number (parseNatural?_eq_some_iff.mpr ⟨?_, digits, small, rfl⟩)
      intro empty
      have parsed := (cut _ (by simp)).isSome_of_number number
      simp [parseDouble?, empty] at parsed
  | number number => exact takes_number number ((cut _ (by simp)).isSome_of_number number)
  | array opens inside closes induction =>
      simp only [List.cons_append, List.forall_mem_append, List.forall_mem_cons] at cut
      exact takes_array opens (induction cut.2.1 literalWithin [] (by simp) fun _ _ => id) closes
  | constant inside induction =>
      exact takes_constant (inside.starts (by simp [Category.starts])) (induction cut)
  | «variable» inside induction =>
      cases inside with
      | identifier name => exact takes_variable name
  | call name other opens inside closes induction =>
      simp only [List.cons_append, List.forall_mem_append, List.forall_mem_cons] at cut
      exact takes_call name other opens inside (induction cut.2.2.1) closes
  | group opens inside closes induction =>
      simp only [List.cons_append, List.forall_mem_append, List.forall_mem_cons] at cut
      exact takes_group opens (induction cut.2.1) closes
  | factor _ induction => exact chains_first (induction cut)
  | multiply front asterisk back front_taken back_taken =>
      simp only [List.forall_mem_append, List.forall_mem_cons] at cut
      exact chains_binary (front_taken cut.1) (by rw [asterisk]; rfl) (by simp [asterisk])
        (back_taken cut.2.2)
  | matmul front atSign back front_taken back_taken =>
      simp only [List.forall_mem_append, List.forall_mem_cons] at cut
      exact chains_binary (front_taken cut.1) (by rw [atSign]; rfl) (by simp [atSign])
        (back_taken cut.2.2)
  | summand _ induction => exact chains_first (takes_termWithin (induction cut))
  | add front plus back front_taken back_taken =>
      simp only [List.forall_mem_append, List.forall_mem_cons] at cut
      exact chains_binary (front_taken cut.1) (by rw [plus]; rfl) (by simp [plus])
        (takes_termWithin (back_taken cut.2.2))
  | last _ induction =>
      exact fun parser kinds comma takes => takesList_last (takes _ _ (induction cut))
  | further front separates back front_taken back_taken =>
      simp only [List.forall_mem_append, List.forall_mem_cons] at cut
      exact fun parser kinds comma takes => takesList_further comma
        (takes _ _ (front_taken cut.1)) separates (back_taken cut.2.2 parser kinds comma takes)
  | unlisted => exact fun _ _ _ _ => .inl ⟨rfl, rfl⟩
  | listed _ induction =>
      exact fun parser kinds comma takes => .inr (induction cut parser kinds comma takes)
  | _ => trivial

/-! ### Statements -/

section Statements

variable {whole : List Char}

theorem expression_eq {tokens : List Token} {tree : Expression} (rest : List Token)
    (spelled : Spells .expression tokens tree) (cut : ∀ token ∈ tokens, token.Cut whole)
    (stops : Stops [.openParen, .asterisk, .atSign, .plus] rest) :
    expression (tokens ++ rest) = .ok (tree, rest) :=
  takes_expressionWithin (taken_of_spells spelled cut) _ rest le_rfl stops

private theorem shapeClause_eq {tokens : List Token} {shape : ShapeClause} (rest : List Token)
    (spelled : Spells .shape tokens shape) (cut : ∀ token ∈ tokens, token.Cut whole) :
    shapeClause (tokens ++ rest) = .ok (shape, rest) := by
  cases spelled with
  | @shape opening closing tokens dimensions opens inside closes =>
      simp only [List.cons_append, List.forall_mem_cons, List.forall_mem_append] at cut
      have taken := taken_of_spells inside cut.2.1 (fun _ => dimension) [] (by simp) fun _ _ => id
      have dimensions_eq : commaSeparated dimension (tokens ++ closing :: rest) =
          .ok (dimensions, closing :: rest) :=
        taken.takes (by simp) _ _ le_rfl (by simp [stops_cons, closes])
      simp only [List.cons_append, List.append_assoc, List.nil_append]
      rw [shapeClause, bind_eq (expect_cons opens), bind_eq dimensions_eq,
        bind_eq (expect_cons closes)]
      rfl

theorem declaration_eq {keyword name equals : Token} {before after rest : List Token}
    {shape : Option ShapeClause} {value : Expression}
    (starts : keyword.kind = .keyword .varWord) (named : name.kind = .identifier)
    (shaped : Spells (.optional .shape) before shape) (initializes : equals.kind = .equals)
    (value_eq : expression (after ++ rest) = .ok (value, rest))
    (cut : ∀ token ∈ before, token.Cut whole) :
    declaration (keyword :: name :: (before ++ equals :: (after ++ rest))) =
      .ok (⟨keyword.span.to value.span, name.identifier, shape, value⟩, rest) := by
  rw [declaration, bind_eq (expect_cons starts), bind_eq (identifier_cons named), bind_isNext]
  cases shaped with
  | absent =>
      have next_eq : (equals.kind == .lessThan) = false := by simp [initializes]
      simp only [List.nil_append, List.head?_cons, Option.any_some, next_eq, Bool.false_eq_true,
        ↓reduceIte]
      rw [bind_eq rfl, bind_next, if_pos initializes, bind_eq value_eq]
      rfl
  | present shaped =>
      obtain ⟨first, more, rfl, kind⟩ := (shaped.starts (by simp [Category.starts])).exists_cons
      have next_eq : (first.kind == .lessThan) = true := by
        simpa [Category.starts] using kind
      have shape_eq := shapeClause_eq (equals :: (after ++ rest)) shaped cut
      simp only [List.cons_append] at shape_eq ⊢
      simp only [List.head?_cons, Option.any_some, next_eq, ↓reduceIte]
      rw [bind_eq (map_eq shape_eq), bind_next, if_pos initializes, bind_eq value_eq]
      rfl

theorem startsPrint_eq_false {category : Category} {tokens rest : List Token} {tree : category.Tree}
    (spelled : Spells category tokens tree)
    (operand : category = .primary ∨ category = .term ∨ category = .expression)
    (cut : ∀ token ∈ tokens, token.Cut whole) (stops : Stops [.openParen] rest) :
    startsPrint (tokens ++ rest) = false := by
  have unprinted : ∀ (first : Token) more, first.Cut whole → first.kind ≠ .identifier →
      startsPrint (first :: more) = false := by
    intro first more cut other
    have text : first.text ≠ "print" := fun print => other (cut.kind_eq_of_print print)
    cases more <;> simp [startsPrint, text]
  induction spelled generalizing rest with
  | constant inside =>
      obtain ⟨first, more, rfl, kind⟩ := (inside.starts (by simp [Category.starts])).exists_cons
      refine unprinted first _ (cut first (by simp)) fun name => ?_
      simp [Category.starts, name] at kind
  | «variable» inside =>
      cases inside with
      | identifier name =>
          cases rest with
          | nil => rfl
          | cons next rest =>
              have other : next.kind ≠ .openParen := by simpa [stops_cons] using stops
              simp [startsPrint, other]
  | call name other => simp [startsPrint, other]
  | @group opening _ _ _ opens =>
      exact unprinted opening _ (cut opening (by simp)) (by simp [opens])
  | factor _ induction | summand _ induction => exact induction (by simp) cut stops
  | multiply _ sign _ induction | matmul _ sign _ induction | add _ sign _ induction =>
      simp only [List.forall_mem_append] at cut
      rw [List.append_assoc]
      exact induction (by simp) cut.1 (by simp [List.cons_append, stops_cons, sign])
  | _ => simp at operand

theorem action_declare {keyword : Token} {tokens rest : List Token} {found : Declaration}
    (starts : keyword.kind = .keyword .varWord)
    (found_eq : declaration (keyword :: tokens) = .ok (found, rest)) :
    action (keyword :: tokens) = .ok ((found.span, .declare found), rest) := by
  rw [action, bind_peek]
  simp only [starts]
  rw [bind_eq found_eq]
  rfl

theorem action_leave {keyword : Token} {tokens rest : List Token} {value : Option Expression}
    (starts : keyword.kind = .keyword .returnWord) (stops : Starts [.semicolon] rest)
    (inside : Spells (.optional .expression) tokens value)
    (cut : ∀ token ∈ tokens, token.Cut whole) :
    action (keyword :: (tokens ++ rest)) = .ok ((keyword.span, .leave value), rest) := by
  obtain ⟨semicolon, after, rfl, ends⟩ := stops.exists_cons
  replace ends : semicolon.kind = .semicolon := by simpa using ends
  rw [action, bind_peek]
  simp only [starts]
  rw [bind_skip, bind_isNext]
  cases inside with
  | absent =>
      simp only [List.nil_append, List.head?_cons, Option.any_some, ends, BEq.rfl, ↓reduceIte]
      rw [bind_eq rfl]
      rfl
  | present inside =>
      have value_eq := expression_eq (semicolon :: after) inside cut
        (by simp [stops_cons, ends])
      obtain ⟨first, more, rfl, kind⟩ := (inside.starts (by simp [Category.starts])).exists_cons
      have next_eq : (first.kind == .semicolon) = false := by
        have other : first.kind ≠ .semicolon := fun same => by simp [Category.starts, same] at kind
        simpa using other
      simp only [List.cons_append] at value_eq ⊢
      simp only [List.head?_cons, Option.any_some, next_eq, Bool.false_eq_true, ↓reduceIte]
      rw [bind_eq (map_eq value_eq)]
      rfl

private theorem action_print {word opening closing : Token} {tokens rest : List Token}
    {value : Expression} (name : word.kind = .identifier) (prints : word.text = "print")
    (opens : opening.kind = .openParen) (closes : closing.kind = .closeParen)
    (value_eq : expression tokens = .ok (value, closing :: rest)) :
    action (word :: opening :: tokens) = .ok ((word.span, .print value), rest) := by
  rw [action, bind_peek]
  simp only [name]
  rw [bind_get, if_pos (startsPrint_cons_cons.mpr ⟨prints, opens⟩), bind_skip,
    bind_eq (expect_cons opens), bind_eq value_eq, bind_eq (expect_cons closes)]
  rfl

private theorem action_evaluate {tokens rest : List Token} {tree : Expression}
    (inside : Spells .expression tokens tree) (cut : ∀ token ∈ tokens, token.Cut whole)
    (stops : Stops [.openParen, .asterisk, .atSign, .plus] rest) :
    action (tokens ++ rest) = .ok ((tree.span, .evaluate tree), rest) := by
  have value_eq := expression_eq rest inside cut stops
  have unprinted := startsPrint_eq_false inside (by simp) cut (stops.mono (by simp))
  obtain ⟨first, more, rfl, kind⟩ := (inside.starts (by simp [Category.starts])).exists_cons
  have evaluated : (do
      if startsPrint (← get) then
        skip
        let _ ← expect .openParen (quoteName "(")
        let value ← expression
        let _ ← expect .closeParen (quoteName ")")
        return (first.span, .print value)
      else
        let expression ← expression
        return (expression.span, .evaluate expression) : Parser (Span × Action))
      (first :: more ++ rest) = .ok ((tree.span, .evaluate tree), rest) := by
    rw [bind_get, if_neg (ne_true_of_eq_false unprinted), bind_eq value_eq]
    rfl
  rw [List.cons_append] at evaluated ⊢
  rw [action, bind_peek]
  simp only [Category.starts, List.mem_cons, List.not_mem_nil, or_false] at kind
  rcases kind with kind | kind | kind | kind <;> simp only [kind] <;> exact evaluated

theorem statement_of_action {tokens rest : List Token} {semicolon : Token} {start : Span}
    {act : Action} (ends : semicolon.kind = .semicolon)
    (action_eq : action tokens = .ok ((start, act), semicolon :: rest)) :
    statement tokens = .ok (⟨start.to semicolon.span, act⟩, rest) := by
  rw [statement, bind_eq action_eq]
  dsimp only
  rw [bind_eq (expect_cons ends)]
  rfl

theorem statement_eq {tokens : List Token} {tree : Statement} (rest : List Token)
    (spelled : Spells .statement tokens tree) (cut : ∀ token ∈ tokens, token.Cut whole) :
    statement (tokens ++ rest) = .ok (tree, rest) := by
  cases spelled with
  | @declare keyword name equals semicolon before after shape value starts named shaped initializes
      inside ends =>
      simp only [List.cons_append, List.append_assoc, List.nil_append, List.forall_mem_cons,
        List.forall_mem_append] at cut ⊢
      obtain ⟨-, -, cut_before, -, cut_after, -⟩ := cut
      have value_eq := expression_eq (semicolon :: rest) inside cut_after
        (by simp [stops_cons, ends])
      have action_eq := action_declare starts
        (declaration_eq starts named shaped initializes value_eq cut_before)
      exact (statement_of_action ends action_eq :)
  | @leave keyword semicolon tokens value starts inside ends =>
      simp only [List.cons_append, List.append_assoc, List.nil_append, List.forall_mem_cons,
        List.forall_mem_append] at cut ⊢
      exact statement_of_action ends
        (action_leave starts (starts_cons.mpr (by simp [ends])) inside cut.2.1)
  | @print word opening closing semicolon tokens value prints opens inside closes ends =>
      simp only [List.cons_append, List.append_assoc, List.nil_append, List.forall_mem_cons,
        List.forall_mem_append] at cut ⊢
      obtain ⟨cut_word, -, cut_inside, -⟩ := cut
      have value_eq := expression_eq (closing :: semicolon :: rest) inside cut_inside
        (by simp [stops_cons, closes])
      exact statement_of_action ends
        (action_print (cut_word.kind_eq_of_print prints) prints opens closes value_eq)
  | @evaluate semicolon tokens expression inside ends =>
      simp only [List.append_assoc, List.cons_append, List.nil_append,
        List.forall_mem_append] at cut ⊢
      exact statement_of_action ends (action_evaluate inside cut.1 (by simp [stops_cons, ends]))

private theorem statement_starts {tokens : List Token} {tree : Statement}
    (spelled : Spells .statement tokens tree) (cut : ∀ token ∈ tokens, token.Cut whole) :
    ∃ first rest, tokens = first :: rest ∧ first.kind ≠ .closeBrace := by
  cases spelled with
  | declare starts => exact ⟨_, _, rfl, by simp [starts]⟩
  | leave starts => exact ⟨_, _, rfl, by simp [starts]⟩
  | print prints =>
      exact ⟨_, _, rfl, by simp [(cut _ (List.mem_cons_self ..)).kind_eq_of_print prints]⟩
  | evaluate inside =>
      obtain ⟨first, more, rfl, kind⟩ := (inside.starts (by simp [Category.starts])).exists_cons
      exact ⟨first, _, rfl, fun same => by simp [Category.starts, same] at kind⟩

private theorem statements_eq {tokens : List Token} {trees : List Statement} {bound : Nat}
    (rest : List Token) (spelled : Spells (.many .statement) tokens trees)
    (cut : ∀ token ∈ tokens, token.Cut whole)
    (enough : tokens.length < bound) (ends : Starts [.closeBrace] rest) :
    statements bound (tokens ++ rest) = .ok (trees, rest) := by
  induction trees generalizing tokens bound with
  | nil =>
      cases spelled
      obtain ⟨bound, rfl⟩ : ∃ fewer, bound = fewer + 1 := ⟨bound - 1, by omega⟩
      obtain ⟨closing, after, rfl, closes⟩ := ends.exists_cons
      rw [List.nil_append, statements, bind_peek, if_pos (by simpa using closes)]
      rfl
  | cons first trees induction =>
      cases spelled with
      | @more _ before after _ _ front back =>
          simp only [List.forall_mem_append, List.length_append] at cut enough
          obtain ⟨bound, rfl⟩ : ∃ fewer, bound = fewer + 1 := ⟨bound - 1, by omega⟩
          have first_eq := statement_eq (after ++ rest) front cut.1
          obtain ⟨token, more, rfl, other⟩ := statement_starts front cut.1
          have rest_eq := induction back cut.2 (by simp at enough; omega : _ < bound)
          rw [List.append_assoc]
          rw [List.cons_append] at first_eq ⊢
          rw [statements, bind_peek, if_neg other, bind_eq first_eq, bind_eq rest_eq]
          rfl

end Statements

/-! ### Functions -/

section Functions

variable {whole : List Char}

theorem block_eq {tokens : List Token} {tree : Block} (rest : List Token)
    (spelled : Spells .block tokens tree) (cut : ∀ token ∈ tokens, token.Cut whole) :
    block (tokens ++ rest) = .ok (tree, rest) := by
  cases spelled with
  | @block opening closing tokens trees opens inside closes =>
      simp only [List.cons_append, List.append_assoc, List.nil_append, List.forall_mem_cons,
        List.forall_mem_append] at cut ⊢
      have trees_eq := statements_eq (closing :: rest) inside cut.2.1
        (by simp : tokens.length < (tokens ++ closing :: rest).length)
        (starts_cons.mpr (by simp [closes]))
      rw [block, bind_eq (expect_cons opens), bind_get, bind_eq trees_eq,
        bind_eq (expect_cons closes)]
      rfl

private theorem functionDefinition_eq {tokens : List Token} {tree : FunctionDefinition}
    (rest : List Token) (spelled : Spells .function tokens tree)
    (cut : ∀ token ∈ tokens, token.Cut whole) :
    functionDefinition (tokens ++ rest) = .ok (tree, rest) := by
  cases spelled with
  | @function keyword name opening closing inside after parameters body starts named opens declared
      closes defined =>
      simp only [List.cons_append, List.append_assoc, List.forall_mem_cons,
        List.forall_mem_append] at cut ⊢
      obtain ⟨-, -, -, cut_inside, -, cut_after⟩ := cut
      have list := taken_of_spells declared cut_inside (fun _ => identifier) [] (by simp)
        fun _ _ => id
      have parameters_eq := parenthesized_eq (after ++ rest) opens closes declared list
        (by simp) (by simp) (by simp [Category.starts]) (by simp [Category.starts]) le_rfl
      rw [functionDefinition, bind_next, if_pos starts, bind_eq (identifier_cons named),
        bind_eq parameters_eq]
      dsimp only
      rw [bind_eq (block_eq rest defined cut_after)]
      rfl

private theorem functionDefinitions_eq {tokens : List Token} {trees : List FunctionDefinition}
    {bound : Nat}
    (spelled : Spells (.many .function) tokens trees) (cut : ∀ token ∈ tokens, token.Cut whole)
    (enough : tokens.length ≤ bound) :
    functionDefinitions bound tokens = .ok (trees, []) := by
  induction trees generalizing tokens bound with
  | nil =>
      cases spelled
      cases bound <;> rfl
  | cons first trees induction =>
      cases spelled with
      | @more _ before after _ _ front back =>
          simp only [List.forall_mem_append, List.length_append] at cut enough
          have first_eq := functionDefinition_eq after front cut.1
          obtain ⟨token, more, rfl, -⟩ := (front.starts (by simp [Category.starts])).exists_cons
          obtain ⟨bound, rfl⟩ : ∃ fewer, bound = fewer + 1 :=
            ⟨bound - 1, by simp at enough; omega⟩
          have rest_eq := induction back cut.2 (by simp at enough; omega : _ ≤ bound)
          rw [functionDefinitions, bind_get, if_neg (by simp), bind_eq first_eq, bind_eq rest_eq]
          rfl

theorem program_eq {tokens : List Token} {trees : List FunctionDefinition}
    (spelled : Spells (.many .function) tokens trees) (cut : ∀ token ∈ tokens, token.Cut whole) :
    program tokens = .ok (⟨trees⟩, []) := by
  have trees_eq := functionDefinitions_eq spelled cut le_rfl
  rw [program, bind_get, bind_eq trees_eq]
  rfl

end Functions

end Parser

/-! ### The language -/

/-- A text is a program just if its tokens are derived from the grammar.  The program is then the
tree of the derivation, and the parser has consumed every token. -/
theorem Source.program_eq_ok_iff {source : Source} {tokens : List Token}
    (lexed : source.tokens = .ok tokens) (program : Program) :
    (source.program = .ok program ↔ Spells (.many .function) tokens program.functions) ∧
      ∀ rest, Parser.program tokens = .ok (program, rest) → rest = [] := by
  have cut : ∀ token ∈ tokens, token.Cut source.contents.toList := by
    have scanned := Token.lexes_scan source.contents
    rwa [Source.accept_eq_ok_iff.mp lexed] at scanned
  have parsed_iff : source.program = .ok program ↔
      ∃ rest, Parser.program tokens = .ok (program, rest) := by
    rw [Source.program, lexed]
    change source.accept (Prod.fst <$> Parser.program tokens) = .ok program ↔ _
    simp [accept_eq_ok_iff, Except.map_eq_ok_iff]
  refine ⟨parsed_iff.trans ⟨?_, fun spelled => ?_⟩, fun rest parsed =>
    (Parser.spells_of_program parsed).1⟩
  · rintro ⟨rest, parsed⟩
    exact (Parser.spells_of_program parsed).2
  · exact ⟨[], Parser.program_eq spelled cut⟩

/-- Combines operators and parentheses, calls and statements of each kind. -/
def Source.scaling : Source where
  contents := "def scale(x, y) \x7b\n  return x * (y + [.5, 2.]) @ x;\n\x7d\n\n" ++
    "func main() \x7b # prints a row\n  var print<2> = [1, 2];\n  scale(print, print);\n" ++
    "  print(scale(print, [[3, 4]]) + print);\n  return;\n\x7d\n"
  origin := .memory

theorem Source.program_eq_ok_iff_scaling :
    ∃ tokens program, scaling.tokens = .ok tokens ∧
      (scaling.program = .ok program ∧ Spells (.many .function) tokens program.functions) ∧
      ∀ rest, Parser.program tokens = .ok (program, rest) → rest = [] := by
  have parses : (scaling.tokens.toOption.bind fun tokens =>
      scaling.program.toOption.map fun program => (tokens, program)).isSome = true := by
    decide +kernel
  obtain ⟨_, parses⟩ := Option.isSome_iff_exists.mp parses
  obtain ⟨tokens, tokens_eq, parses⟩ := Option.bind_eq_some_iff.mp parses
  obtain ⟨program, program_eq, -⟩ := Option.map_eq_some_iff.mp parses
  replace tokens_eq := Except.toOption_eq_some_iff.mp tokens_eq
  replace program_eq := Except.toOption_eq_some_iff.mp program_eq
  obtain ⟨derived, consumed⟩ := program_eq_ok_iff tokens_eq program
  exact ⟨tokens, program, tokens_eq, ⟨program_eq, derived.mp program_eq⟩, consumed⟩

end TensorLang
