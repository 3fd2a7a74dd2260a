import TensorLang.Proofs.Program.Lexing

/-!
# Spans of a syntax tree nest

Each node of the tree of a program covers a part of the text that starts where a token starts and
ends where a token ends.  The parts of its children lie within, one after the other.  Parentheses
leave no trace in the tree, so the part of a node can be less than its tokens cover, but never more.
-/

namespace TensorLang

/-! ### Trees of spans -/

/-- The parts of a text that the nodes of a tree cover. -/
inductive SpanTree where
  /-- A node with its children in order. -/
  | node (span : Span) (children : List SpanTree)

/-- The part that the root covers. -/
def SpanTree.span : SpanTree → Span
  | .node span _ => span

/-- A name as a tree of spans. -/
def Identifier.spans (name : Identifier) : SpanTree := .node name.span []

namespace Literal

mutual

/-- The parts that a literal and its elements cover. -/
def spans : Literal → SpanTree
  | .number span _ => .node span []
  | .array span elements => .node span (spansAll elements)

/-- The parts that several literals cover. -/
def spansAll : List Literal → List SpanTree
  | [] => []
  | literal :: literals => literal.spans :: spansAll literals

end

end Literal

namespace Expression

mutual

/-- The parts that an expression, its operators, names and literals cover. -/
def spans : Expression → SpanTree
  | .literal value => .node value.span [value.spans]
  | .identifier name => .node name.span [name.spans]
  | .binary span left _ operatorSpan right =>
      .node span [left.spans, .node operatorSpan [], right.spans]
  | .call span callee arguments => .node span (callee.spans :: spansAll arguments)

/-- The parts that several expressions cover. -/
def spansAll : List Expression → List SpanTree
  | [] => []
  | expression :: expressions => expression.spans :: spansAll expressions

end

end Expression

/-- The part that a shape covers; dimensions are not nodes. -/
def ShapeClause.spans (clause : ShapeClause) : SpanTree := .node clause.span []

/-- The parts that a declaration covers. -/
def Declaration.spans (declaration : Declaration) : SpanTree :=
  .node declaration.span (declaration.name.spans ::
    (declaration.shape.toList.map ShapeClause.spans ++ [declaration.initializer.spans]))

/-- The parts that a statement consists of. -/
def Action.spans : Action → List SpanTree
  | .declare declaration => [declaration.spans]
  | .leave value => value.toList.map Expression.spans
  | .print value => [value.spans]
  | .evaluate expression => [expression.spans]

/-- The parts that a statement covers. -/
def Statement.spans (statement : Statement) : SpanTree :=
  .node statement.span statement.action.spans

/-- The parts that a block covers. -/
def Block.spans (block : Block) : SpanTree :=
  .node block.span (block.statements.map Statement.spans)

/-- The parts that a function covers. -/
def FunctionDefinition.spans (definition : FunctionDefinition) : SpanTree :=
  .node definition.span (definition.name.spans ::
    (definition.parameters.map Identifier.spans ++ [definition.body.spans]))

/-- The parts that the functions of a program cover. -/
def Program.spans (program : Program) : List SpanTree :=
  program.functions.map FunctionDefinition.spans

/-- The parts that the trees of a construct cover. -/
def Category.spans : (category : Category) → category.Tree → List SpanTree
  | .identifier, tree => [tree.spans]
  | .dimension, _ => []
  | .literal, tree => [tree.spans]
  | .primary, tree | .term, tree | .expression, tree => [tree.spans]
  | .shape, tree => [tree.spans]
  | .statement, tree => [tree.spans]
  | .block, tree => [tree.spans]
  | .function, tree => [tree.spans]
  | .optional item, found => found.toList.flatMap item.spans
  | .separated item, trees | .listed item, trees | .many item, trees => trees.flatMap item.spans

theorem Expression.span_spans (expression : Expression) :
    expression.spans.span = expression.span := by
  cases expression <;> rfl

theorem Literal.span_spans (literal : Literal) : literal.spans.span = literal.span := by
  cases literal <;> rfl

theorem Literal.spansAll_eq (literals : List Literal) :
    spansAll literals = (Category.separated .literal).spans literals := by
  induction literals with
  | nil => rfl
  | cons literal literals induction => rw [spansAll, induction]; rfl

theorem Expression.spansAll_eq (expressions : List Expression) :
    spansAll expressions = (Category.listed .expression).spans expressions := by
  induction expressions with
  | nil => rfl
  | cons expression expressions induction => rw [spansAll, induction]; rfl

/-! ### Nesting -/

/-- The parts stand one after the other, and none overlaps with another. -/
def SpansInOrder (trees : List SpanTree) : Prop :=
  trees.Pairwise fun first second => first.span.stop ≤ second.span.start

/-- Each node covers a part from the start of a token to the end of a token, and its children cover
parts of this, one after the other. -/
inductive SpanTree.Nests (tokens : List Token) : SpanTree → Prop where
  | node {span : Span} {children : List SpanTree}
      (starts : ∃ token ∈ tokens, token.span.start = span.start)
      (stops : ∃ token ∈ tokens, token.span.stop = span.stop) (nonempty : span.start < span.stop)
      (within : ∀ child ∈ children,
        span.start ≤ child.span.start ∧ child.span.stop ≤ span.stop)
      (ordered : SpansInOrder children) (inside : ∀ child ∈ children, Nests tokens child) :
      Nests tokens (.node span children)

section Nesting

variable {tokens others front back : List Token} {tree : SpanTree}
variable {trees first second : List SpanTree}
variable {token opening closing : Token}

theorem SpanTree.Nests.mono (nests : tree.Nests tokens) (subset : tokens ⊆ others) :
    tree.Nests others := by
  induction nests with
  | node starts stops nonempty within ordered _ induction =>
      obtain ⟨first, first_mem, start_eq⟩ := starts
      obtain ⟨last, last_mem, stop_eq⟩ := stops
      exact .node ⟨first, subset first_mem, start_eq⟩ ⟨last, subset last_mem, stop_eq⟩
        nonempty within ordered induction

theorem SpanTree.Nests.start (nests : tree.Nests tokens) :
    ∃ token ∈ tokens, token.span.start = tree.span.start := by
  cases nests with
  | node starts => exact starts

theorem SpanTree.Nests.stop (nests : tree.Nests tokens) :
    ∃ token ∈ tokens, token.span.stop = tree.span.stop := by
  cases nests with
  | node _ stops => exact stops

theorem SpanTree.Nests.nonempty (nests : tree.Nests tokens) : tree.span.start < tree.span.stop := by
  cases nests with
  | node _ _ nonempty => exact nonempty

/-- No token is empty, and they stand one after the other. -/
structure TokensInOrder (tokens : List Token) : Prop where
  /-- No token is empty. -/
  nonempty : ∀ token ∈ tokens, token.span.start < token.span.stop
  /-- No token overlaps with another. -/
  ordered : tokens.Pairwise fun first second => first.span.stop ≤ second.span.start

/-- The trees nest and stand in order. -/
structure Fits (tokens : List Token) (trees : List SpanTree) : Prop where
  /-- Each of the trees nests. -/
  nests : ∀ tree ∈ trees, tree.Nests tokens
  /-- No tree overlaps with another. -/
  ordered : SpansInOrder trees

namespace TokensInOrder

theorem of_append (inOrder : TokensInOrder (front ++ back)) :
    TokensInOrder front ∧ TokensInOrder back := by
  obtain ⟨nonempty, ordered⟩ := inOrder
  rw [List.forall_mem_append] at nonempty
  rw [List.pairwise_append] at ordered
  exact ⟨⟨nonempty.1, ordered.1⟩, ⟨nonempty.2, ordered.2.1⟩⟩

theorem of_cons (inOrder : TokensInOrder (token :: back)) : TokensInOrder back := by
  have divided : TokensInOrder ([token] ++ back) := inOrder
  exact divided.of_append.2

/-- What stands between two tokens. -/
theorem of_enclosed (inOrder : TokensInOrder (opening :: tokens ++ [closing])) :
    TokensInOrder tokens :=
  inOrder.of_append.1.of_cons

/-- What stands on the two sides of a token. -/
theorem of_divided (inOrder : TokensInOrder (front ++ token :: back)) :
    TokensInOrder front ∧ TokensInOrder back :=
  ⟨inOrder.of_append.1, inOrder.of_append.2.of_cons⟩

theorem start_le (inOrder : TokensInOrder (token :: back)) :
    ∀ other ∈ token :: back, token.span.start ≤ other.span.start := by
  refine List.forall_mem_cons.mpr ⟨Nat.le_refl _, fun other member => ?_⟩
  have apart := (List.pairwise_cons.mp inOrder.ordered).1 other member
  have nonempty := inOrder.nonempty token List.mem_cons_self
  omega

theorem le_stop (inOrder : TokensInOrder (front ++ [token])) :
    ∀ other ∈ front ++ [token], other.span.stop ≤ token.span.stop := by
  intro other member
  rcases List.mem_append.mp member with earlier | last
  · have apart := (List.pairwise_append.mp inOrder.ordered).2.2 other earlier token (by simp)
    have nonempty := inOrder.nonempty token (by simp)
    omega
  · rw [List.mem_singleton.mp last]

end TokensInOrder

namespace Fits

theorem mono (fits : Fits tokens trees) (subset : tokens ⊆ others) : Fits others trees :=
  ⟨fun tree member => (fits.nests tree member).mono subset, fits.ordered⟩

theorem nil : Fits tokens [] := ⟨by simp, .nil⟩

theorem singleton (nests : tree.Nests tokens) : Fits tokens [tree] :=
  ⟨List.forall_mem_singleton.mpr nests, List.pairwise_singleton _ _⟩

/-- Trees for two rows of tokens stand in order like these. -/
theorem append (inOrder : TokensInOrder (front ++ back)) (before : Fits front first)
    (after : Fits back second) : Fits (front ++ back) (first ++ second) where
  nests := List.forall_mem_append.mpr
    ⟨(before.mono (List.subset_append_left _ _)).nests,
      (after.mono (List.subset_append_right _ _)).nests⟩
  ordered := by
    refine List.pairwise_append.mpr
      ⟨before.ordered, after.ordered, fun tree member other later => ?_⟩
    obtain ⟨last, last_mem, stop_eq⟩ := (before.nests tree member).stop
    obtain ⟨next, next_mem, start_eq⟩ := (after.nests other later).start
    have apart := (List.pairwise_append.mp inOrder.ordered).2.2 last last_mem next next_mem
    omega

/-- A token in between that is no part of the tree. -/
theorem divided (inOrder : TokensInOrder (front ++ token :: back)) (before : Fits front first)
    (after : Fits back second) : Fits (front ++ token :: back) (first ++ second) :=
  append inOrder before (after.mono (List.subset_cons_self _ _))

/-- No part of a fitting tree starts before the first token. -/
theorem start_le (inOrder : TokensInOrder (token :: back)) (fits : Fits (token :: back) trees) :
    ∀ tree ∈ trees, token.span.start ≤ tree.span.start := by
  intro tree member
  obtain ⟨other, other_mem, start_eq⟩ := (fits.nests tree member).start
  exact start_eq ▸ inOrder.start_le other other_mem

theorem le_stop (inOrder : TokensInOrder (front ++ [token]))
    (fits : Fits (front ++ [token]) trees) :
    ∀ tree ∈ trees, tree.span.stop ≤ token.span.stop := by
  intro tree member
  obtain ⟨other, other_mem, stop_eq⟩ := (fits.nests tree member).stop
  exact stop_eq ▸ inOrder.le_stop other other_mem

theorem le_last (fits : Fits tokens (trees ++ [tree])) :
    ∀ child ∈ trees ++ [tree], child.span.stop ≤ tree.span.stop := by
  intro child member
  rcases List.mem_append.mp member with earlier | last
  · have apart := (List.pairwise_append.mp fits.ordered).2.2 child earlier tree (by simp)
    have nonempty := (fits.nests tree (by simp)).nonempty
    omega
  · rw [List.mem_singleton.mp last]

private theorem first_le (fits : Fits tokens (tree :: trees)) :
    ∀ child ∈ tree :: trees, tree.span.start ≤ child.span.start := by
  refine List.forall_mem_cons.mpr ⟨Nat.le_refl _, fun child member => ?_⟩
  have apart := (List.pairwise_cons.mp fits.ordered).1 child member
  have nonempty := (fits.nests tree (by simp)).nonempty
  omega

end Fits

theorem nests_token (inOrder : TokensInOrder tokens) (member : token ∈ tokens) :
    (SpanTree.node token.span []).Nests tokens :=
  .node ⟨token, member, rfl⟩ ⟨token, member, rfl⟩ (inOrder.nonempty token member) (by simp) .nil
    (by simp)

private theorem fits_token (inOrder : TokensInOrder (token :: back)) :
    Fits [token] [.node token.span []] := by
  have alone : TokensInOrder [token] :=
    ⟨List.forall_mem_singleton.mpr (inOrder.nonempty token List.mem_cons_self),
      List.pairwise_singleton _ _⟩
  exact .singleton (nests_token alone List.mem_cons_self)

/-- A first token has a node of its own, and the other nodes are for the tokens after it. -/
theorem Fits.cons (inOrder : TokensInOrder (token :: back)) (fits : Fits back trees) :
    Fits (token :: back) (.node token.span [] :: trees) := by
  have divided : TokensInOrder ([token] ++ back) := inOrder
  exact .append divided (fits_token inOrder) fits

theorem nests_enclosed (inOrder : TokensInOrder (opening :: back ++ [closing]))
    (fits : Fits (opening :: back ++ [closing]) trees) :
    (SpanTree.node (opening.span.to closing.span) trees).Nests (opening :: back ++ [closing]) := by
  have upto := inOrder.le_stop opening (by simp)
  have nonempty := inOrder.nonempty opening (by simp)
  refine .node ⟨opening, by simp, rfl⟩ ⟨closing, by simp, rfl⟩ (by simp only [Span.to]; omega)
    (fun child member => ⟨?_, fits.le_stop inOrder child member⟩) fits.ordered fits.nests
  rw [List.cons_append] at inOrder fits
  exact fits.start_le inOrder child member

theorem nests_around (nests : tree.Nests tokens) : (SpanTree.node tree.span [tree]).Nests tokens :=
  .node nests.start nests.stop nests.nonempty (by simp) (List.pairwise_singleton _ _) (by simpa)

/-- A node from the first token to the end of its last child. -/
theorem nests_opened (trees : List SpanTree) (inOrder : TokensInOrder (opening :: back))
    (fits : Fits (opening :: back) (trees ++ [tree])) :
    (SpanTree.node (opening.span.to tree.span) (trees ++ [tree])).Nests (opening :: back) := by
  have starts := fits.start_le inOrder
  have nonempty := (fits.nests tree (by simp)).nonempty
  have start_le := starts tree (by simp)
  exact .node ⟨opening, by simp, rfl⟩ (fits.nests tree (by simp)).stop
    (by simp only [Span.to]; omega)
    (fun child member => ⟨starts child member, fits.le_last child member⟩) fits.ordered fits.nests

private theorem nests_joined {left right : SpanTree} (trees : List SpanTree)
    (fits : Fits tokens (left :: trees ++ [right])) :
    (SpanTree.node (left.span.to right.span) (left :: trees ++ [right])).Nests tokens := by
  have left_nests := fits.nests left (by simp)
  have right_nests := fits.nests right (by simp)
  have nonempty := left_nests.nonempty
  have upto := fits.le_last
  have covers := upto left (by simp)
  exact .node left_nests.start right_nests.stop (by simp only [Span.to]; omega)
    (fun child member => ⟨fits.first_le child member, upto child member⟩) fits.ordered fits.nests

private theorem nests_closed (inOrder : TokensInOrder (back ++ [closing]))
    (fits : Fits back [tree]) :
    (SpanTree.node (tree.span.to closing.span) [tree]).Nests (back ++ [closing]) := by
  have whole := fits.mono (List.subset_append_left back [closing])
  have nests := whole.nests tree (by simp)
  have nonempty := nests.nonempty
  have upto := whole.le_stop inOrder tree (by simp)
  refine .node nests.start ⟨closing, by simp, rfl⟩ (by simp only [Span.to]; omega) ?_ whole.ordered
    whole.nests
  exact List.forall_mem_singleton.mpr ⟨Nat.le_refl _, upto⟩

private theorem fits_binary {left right : Expression}
    (inOrder : TokensInOrder (front ++ token :: back))
    (before : Fits front [left.spans]) (after : Fits back [right.spans]) (operator : Operator) :
    Fits (front ++ token :: back)
      [(Expression.binary (left.span.to right.span) left operator token.span right).spans] := by
  have rest := inOrder.of_append.2
  have operands := Fits.append inOrder before (Fits.cons rest after)
  refine .singleton ?_
  rw [Expression.spans, ← left.span_spans, ← right.span_spans]
  exact nests_joined [.node token.span []] operands

end Nesting

/-- The tree of a construct nests, and the parts of its nodes are covered by its tokens. -/
theorem Spells.fits {category : Category} {tokens : List Token} {tree : category.Tree}
    (spelled : Spells category tokens tree) (inOrder : TokensInOrder tokens) :
    Fits tokens (category.spans tree) := by
  induction spelled with
  | identifier => exact .singleton (nests_token inOrder (by simp))
  | dimension => exact .nil
  | number => exact .singleton (nests_token inOrder (by simp))
  | @array opening closing tokens elements _ _ _ inside =>
      refine .singleton (nests_enclosed inOrder ?_)
      rw [Literal.spansAll_eq]
      exact (inside inOrder.of_enclosed).mono (by simp)
  | @constant _ value _ whole =>
      have nests := (whole inOrder).nests value.spans (by simp [Category.spans])
      refine .singleton ?_
      rw [Expression.spans, ← value.span_spans]
      exact nests_around nests
  | @«variable» _ name _ whole =>
      have nests := (whole inOrder).nests name.spans (by simp [Category.spans])
      exact .singleton (nests_around nests)
  | @call callee opening closing tokens arguments _ _ _ _ _ inside =>
      refine .singleton (nests_enclosed inOrder ?_)
      rw [Expression.spansAll_eq]
      exact .cons inOrder ((inside inOrder.of_enclosed.of_cons).mono (by simp))
  | group _ _ _ inside => exact (inside inOrder.of_enclosed).mono (by simp)
  | factor _ whole | summand _ whole | listed _ whole => exact whole inOrder
  | multiply _ _ _ front back | matmul _ _ _ front back | add _ _ _ front back =>
      obtain ⟨before, after⟩ := inOrder.of_divided
      exact fits_binary inOrder (front before) (back after) _
  | shape => exact .singleton (nests_enclosed inOrder .nil)
  | @declare keyword name equals semicolon before after shape value _ _ _ _ _ _ shaped inside =>
      have inner : TokensInOrder (keyword :: name :: (before ++ equals :: after)) :=
        inOrder.of_append.1
      obtain ⟨clause, initializer⟩ := inner.of_cons.of_cons.of_divided
      have parts := Fits.divided inner.of_cons.of_cons (shaped clause) (inside initializer)
      have named := (Fits.cons inner.of_cons parts).mono (List.subset_cons_self keyword _)
      have declaration := nests_opened
        (name.identifier.spans :: (Category.optional .shape).spans shape) inner named
      refine .singleton (nests_enclosed inOrder (.singleton ?_))
      rw [Declaration.spans, List.map_eq_flatMap, ← value.span_spans]
      exact declaration.mono (List.subset_append_left _ _)
  | @leave keyword semicolon tokens value _ _ _ inside =>
      refine .singleton (nests_enclosed inOrder ?_)
      rw [Action.spans, List.map_eq_flatMap]
      exact (inside inOrder.of_enclosed).mono (by simp)
  | @print word opening closing semicolon tokens value _ _ _ _ _ inside =>
      have enclosed : TokensInOrder (word :: (opening :: tokens ++ [closing]) ++ [semicolon]) := by
        simpa using inOrder
      have nests := nests_enclosed enclosed
        ((inside enclosed.of_enclosed.of_enclosed).mono fun token member => by simp [member])
      exact .singleton (nests.mono (by simp))
  | @evaluate semicolon tokens expression _ _ inside =>
      refine .singleton ?_
      have closed := nests_closed inOrder (inside inOrder.of_append.1)
      rw [expression.span_spans] at closed
      exact closed
  | block _ _ _ inside =>
      refine .singleton (nests_enclosed inOrder ?_)
      rw [List.map_eq_flatMap]
      exact (inside inOrder.of_enclosed).mono (by simp)
  | @function keyword name opening closing before after parameters body _ _ _ _ _ _
      declared defined =>
      have named : TokensInOrder (name :: opening :: (before ++ closing :: after)) :=
        inOrder.of_cons
      obtain ⟨list, block⟩ := named.of_cons.of_cons.of_divided
      have parts := Fits.divided named.of_cons.of_cons (declared list) (defined block)
      have all := Fits.cons named (parts.mono (List.subset_cons_self opening _))
      have definition := nests_opened
        (name.identifier.spans :: (Category.listed .identifier).spans parameters) inOrder
        (all.mono (List.subset_cons_self keyword _))
      refine .singleton ?_
      rw [FunctionDefinition.spans, List.map_eq_flatMap]
      exact definition
  | present _ whole => simpa [Category.spans] using whole inOrder
  | last _ whole => simpa [Category.spans] using whole inOrder
  | further _ _ _ front back =>
      obtain ⟨before, after⟩ := inOrder.of_divided
      exact .divided inOrder (front before) (back after)
  | more _ _ front back =>
      obtain ⟨before, after⟩ := inOrder.of_append
      exact .append inOrder (front before) (back after)
  | absent | unlisted | none => exact .nil

theorem Program.fits_of_ofTokens {tokens : List Token} {program : Program}
    (success : ofTokens tokens = .ok program) (inOrder : TokensInOrder tokens) :
    Fits tokens program.spans := by
  rw [spans, List.map_eq_flatMap]
  exact (spells_of_ofTokens success).fits inOrder

theorem Source.tokensInOrder {source : Source} {tokens : List Token}
    (lexes : source.tokens = .ok tokens) : TokensInOrder tokens := by
  have tiles := Token.scan_eq_ok_iff.mp (accept_eq_ok_iff.mp lexes)
  exact ⟨tiles.nonempty, tiles.ordered⟩

/-- Spans of a syntax tree nest.  Where a text is a program, each node of its tree covers a part of
the text from the start of a token to the end of a token; the parts of the children of a node lie
within its part, one after the other, and so do the functions within the text. -/
theorem Source.program_spans_nest {source : Source} {program : Program}
    (parses : source.program = .ok program) :
    ∃ tokens, source.tokens = .ok tokens ∧ (∀ tree ∈ program.spans, tree.Nests tokens) ∧
      SpansInOrder program.spans := by
  obtain ⟨tokens, lexes, accepted⟩ := Except.bind_eq_ok_iff.mp parses
  have fits := Program.fits_of_ofTokens (accept_eq_ok_iff.mp accepted) (tokensInOrder lexes)
  exact ⟨tokens, lexes, fits.nests, fits.ordered⟩

/-- Has parentheses around operands, a declared shape, a call and a print statement. -/
def Source.groupedOperands : Source where
  contents :=
    "def scale(x, y) \x7b\n  var z = (x + (y));\n  (z);\n  return z * (x + y) @ x;\n\x7d\n" ++
    "def main() \x7b\n  var a<1, 2> = [[1, 2]];\n  print(scale(a, (a)) + a);\n\x7d\n"
  origin := .memory

theorem Source.program_spans_nest_groupedOperands :
    ∃ program tokens, groupedOperands.program = .ok program ∧
      program.spans.map (fun | .node span children => (span, children.map SpanTree.span)) =
        [(⟨0, 73⟩, [⟨4, 9⟩, ⟨10, 11⟩, ⟨13, 14⟩, ⟨16, 73⟩]), (⟨74, 142⟩, [⟨78, 82⟩, ⟨85, 142⟩])] ∧
      groupedOperands.tokens = .ok tokens ∧ (∀ tree ∈ program.spans, tree.Nests tokens) ∧
      SpansInOrder program.spans := by
  have parsed : (groupedOperands.program.toOption.map fun program => program.spans.map
      (fun | .node span children => (span, children.map SpanTree.span))) =
      some [(⟨0, 73⟩, [⟨4, 9⟩, ⟨10, 11⟩, ⟨13, 14⟩, ⟨16, 73⟩]),
        (⟨74, 142⟩, [⟨78, 82⟩, ⟨85, 142⟩])] := by decide +kernel
  obtain ⟨program, parses, spans_eq⟩ := Option.map_eq_some_iff.mp parsed
  have parses := Except.toOption_eq_some_iff.mp parses
  obtain ⟨tokens, lexes, nests, inOrder⟩ := program_spans_nest parses
  exact ⟨program, tokens, parses, spans_eq, lexes, nests, inOrder⟩

end TensorLang
