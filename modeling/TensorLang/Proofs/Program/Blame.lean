import TensorLang.Proofs.Program.Completeness
import TensorLang.Proofs.Program.Expectations

/-!
# What parsers blame

The parsers do what the automaton of expectations does: where a parser takes tokens, the automaton
reads them and expects what the parser goes on with, and where a parser refuses a token, the
automaton is stuck at it.  Only a call of `print` is refused one token before the automaton gets
stuck, at the name.  Parsers are followed along the combinators that they are built from, and loops
by induction on their bound.
-/

namespace TensorLang

open Expectations

/-- The automaton shows the same place as the refusal. -/
inductive Blames (expected : List Expectation) (tokens : List Token) : Rejection → Prop where
  /-- The text ends while something is still expected. -/
  | ends {left : List Expectation} {message : String} (reads : run expected tokens = some left)
      (unfinished : left ≠ []) : Blames expected tokens ⟨none, message⟩
  /-- The token meets no expectation, and not because it calls `print`. -/
  | token (before : List Token) {after : List Token} {token : Token} {first : Expectation}
      {others : List Expectation} {message : String} (split : tokens = before ++ token :: after)
      (reads : run expected before = some (first :: others)) (sticks : first.meet token = none)
      (fair : ¬ first.BarsCall token) : Blames expected tokens ⟨some token.span.start, message⟩
  /-- No function starts with the token. -/
  | function (before : List Token) {after : List Token} {token : Token} {message : String}
      (split : tokens = before ++ token :: after) (reads : run expected before = some [])
      (sticks : token.startFunction = none) :
      Blames expected tokens ⟨some token.span.start, message⟩
  /-- The name `print` is called in an expression. -/
  | print (before : List Token) {after : List Token} {word opening : Token} {closer : Closer}
      {others : List Expectation} {message : String}
      (split : tokens = before ++ word :: opening :: after)
      (name : word.kind = .identifier) (prints : word.text = "print")
      (opens : opening.kind = .openParen)
      (reads : run expected (before ++ [word]) = some (.named true closer :: others)) :
      Blames expected tokens ⟨some word.span.start, message⟩

theorem Blames.append {expected left : List Expectation} {used rest : List Token}
    {rejection : Rejection} (reads : run expected used = some left)
    (blames : Blames left rest rejection) : Blames expected (used ++ rest) rejection := by
  cases blames with
  | ends more unfinished => exact .ends ((run_append_of_some reads).trans more) unfinished
  | token before split more sticks fair =>
      exact .token (used ++ before) (by rw [split, List.append_assoc])
        ((run_append_of_some reads).trans more) sticks fair
  | function before split more sticks =>
      exact .function (used ++ before) (by rw [split, List.append_assoc])
        ((run_append_of_some reads).trans more) sticks
  | print before split name prints opens more =>
      exact .print (used ++ before) (by rw [split, List.append_assoc]) name prints opens
        (by rw [List.append_assoc]; exact (run_append_of_some reads).trans more)

/-- What is blamed is not a text that meets all that is expected. -/
theorem Blames.unfinished {expected : List Expectation} {tokens : List Token}
    {rejection : Rejection}
    (blames : Blames expected tokens rejection) : run expected tokens ≠ some [] := by
  intro reads
  cases blames with
  | ends ended unfinished => exact unfinished (Option.some.inj (ended.symm.trans reads))
  | token before split front sticks =>
      rw [split, run_append_of_some front, run_cons, advance, sticks] at reads
      cases reads
  | function before split front sticks =>
      rw [split, run_append_of_some front, run_cons, advance, sticks] at reads
      cases reads
  | print before split _ _ opens front =>
      rw [split, List.append_cons, run_append_of_some front] at reads
      simp [advance, Expectation.meet, opens] at reads

namespace Parser

variable {α β : Type} {parser : Parser α} {expected : List Expectation} {tokens : List Token}
variable {post : α → List Expectation → List Token → Prop}

/-- The parser takes tokens that the automaton reads, and ends with what is left to expect and to
read; or it blames what the automaton blames. -/
def Follows (parser : Parser α) (expected : List Expectation) (tokens : List Token)
    (post : α → List Expectation → List Token → Prop) : Prop :=
  match parser tokens with
  | .ok (value, rest) =>
      ∃ used left, tokens = used ++ rest ∧ run expected used = some left ∧ post value left rest
  | .error rejection => Blames expected tokens rejection

namespace Follows

theorem bind {next : α → Parser β} {mid : α → List Expectation → List Token → Prop}
    {post : β → List Expectation → List Token → Prop} (early : Follows parser expected tokens mid)
    (late : ∀ value left rest, rest <:+ tokens → mid value left rest →
      Follows (next value) left rest post) :
    Follows (parser >>= next) expected tokens post := by
  rw [Follows] at early ⊢
  change match parser tokens >>= fun found => next found.1 found.2 with
    | .ok (value, rest) => _
    | .error rejection => _
  cases parsed : parser tokens with
  | error rejection =>
      rw [parsed] at early
      exact early
  | ok found =>
      obtain ⟨value, rest⟩ := found
      rw [parsed] at early
      obtain ⟨used, left, rfl, reads, holds⟩ := early
      have later := late value left rest (List.suffix_append _ _) holds
      rw [Follows] at later
      change match next value rest with
        | .ok (value, rest) => _
        | .error rejection => _
      cases more : next value rest with
      | error rejection =>
          rw [more] at later
          exact later.append reads
      | ok found =>
          obtain ⟨result, after⟩ := found
          rw [more] at later
          obtain ⟨further, final, rfl, reads_further, accepted⟩ := later
          exact ⟨used ++ further, final, by simp, (run_append_of_some reads).trans reads_further,
            accepted⟩

theorem pure {value : α} (holds : post value expected tokens) :
    Follows (Pure.pure value) expected tokens post :=
  ⟨[], expected, rfl, rfl, holds⟩

theorem mono {weaker : α → List Expectation → List Token → Prop}
    (follows : Follows parser expected tokens post)
    (weaken : ∀ value left rest, post value left rest → weaker value left rest) :
    Follows parser expected tokens weaker := by
  rw [Follows] at follows ⊢
  split at follows
  · obtain ⟨used, left, split_eq, reads, holds⟩ := follows
    exact ⟨used, left, split_eq, reads, weaken _ _ _ holds⟩
  · exact follows

theorem map {change : α → β} {post : β → List Expectation → List Token → Prop}
    (each : Follows parser expected tokens fun value => post (change value)) :
    Follows (change <$> parser) expected tokens post := by
  change Follows (parser >>= fun value => Pure.pure (change value)) expected tokens post
  exact each.bind fun _ _ _ _ => pure

theorem get {next : List Token → Parser α} (late : Follows (next tokens) expected tokens post) :
    Follows (get >>= next) expected tokens post :=
  late

/-- A test of the next token reads nothing. -/
theorem isNext {kind : TokenKind} {next : Bool → Parser α}
    (holds : (∃ token rest, tokens = token :: rest ∧ token.kind = kind) →
      Follows (next true) expected tokens post)
    (fails : (∀ token ∈ tokens.head?, token.kind ≠ kind) →
      Follows (next false) expected tokens post) :
    Follows (Parser.isNext kind >>= next) expected tokens post := by
  change Follows (next (tokens.head?.any fun token => token.kind == kind)) expected tokens post
  cases tokens with
  | nil => exact fails (by simp)
  | cons token rest =>
      rw [List.head?_cons, Option.any_some]
      by_cases same : token.kind = kind
      · rw [beq_iff_eq.mpr same]
        exact holds ⟨token, rest, rfl, same⟩
      · rw [beq_eq_false_iff_ne.mpr same]
        exact fails (by simpa using same)

/-- A look at the next token reads nothing, but there must be one. -/
theorem peek {message : String} {next : Token → Parser α} (unfinished : expected ≠ [])
    (late : ∀ token rest, tokens = token :: rest → Follows (next token) expected tokens post) :
    Follows (Parser.peek message >>= next) expected tokens post := by
  cases tokens with
  | nil => exact Blames.ends rfl unfinished
  | cons token rest => exact late token rest rfl

/-- A token that can follow is taken. -/
theorem skip {next : Unit → Parser α} {token : Token} {rest : List Token}
    {left : List Expectation} (reads : advance expected token = some left)
    (late : Follows (next ()) left rest post) :
    Follows (Parser.skip >>= next) expected (token :: rest) post := by
  have taken : Follows Parser.skip expected (token :: rest)
      fun _ after others => after = left ∧ others = rest :=
    ⟨[token], left, rfl, by simp [reads], rfl, rfl⟩
  exact taken.bind fun _ _ _ _ holds => holds.1 ▸ holds.2 ▸ late

end Follows

/-- The parser goes on after the token, or it refuses what the automaton refuses. -/
def Proceeds (parser : Parser α) (expected : List Expectation) (token : Token) (rest : List Token)
    (post : α → List Expectation → List Token → Prop) : Prop :=
  (∃ left, advance expected token = some left ∧ Follows parser left rest post) ∨
    ∃ rejection, parser rest = .error rejection ∧ Blames expected (token :: rest) rejection

namespace Follows

/-- The next token is taken, and may be refused then. -/
theorem next {message : String} {next : Token → Parser α} (unfinished : tokens = [] → expected ≠ [])
    (late : ∀ token rest, tokens = token :: rest → Proceeds (next token) expected token rest post) :
    Follows (Parser.next message >>= next) expected tokens post := by
  cases tokens with
  | nil => exact Blames.ends rfl (unfinished rfl)
  | cons token rest =>
      obtain ⟨left, reads, later⟩ | ⟨rejection, next_eq, blames⟩ := late token rest rfl
      · change Follows (Parser.skip >>= fun _ => next token) expected (token :: rest) post
        exact skip reads later
      · change match next token rest with
          | .ok (value, rest) => _
          | .error rejection => _
        rw [next_eq]
        exact blames

/-- A token of the class is taken, and may be refused then. -/
theorem expect {kind : TokenKind} {message : String} {next : Token → Parser α}
    (unfinished : expected ≠ [])
    (taken : ∀ token rest, tokens = token :: rest → token.kind = kind →
      Proceeds (next token) expected token rest post)
    (refused : ∀ token rest message, tokens = token :: rest → token.kind ≠ kind →
      Blames expected tokens ⟨some token.span.start, message⟩) :
    Follows (Parser.expect kind message >>= next) expected tokens post := by
  rw [Parser.expect, bind_assoc]
  refine Follows.next (fun _ => unfinished) fun token rest tokens_eq => ?_
  by_cases same : token.kind = kind
  · rw [if_pos same, pure_bind]
    exact taken token rest tokens_eq same
  · rw [if_neg same]
    exact .inr ⟨_, rfl, tokens_eq ▸ refused token rest _ tokens_eq same⟩

end Follows

/-! ### Single tokens -/

/-- The next token has the effect that `meet` says, and leaves the others to expect. -/
def Ready (meet : Token → Option (List Expectation)) (others expected : List Expectation)
    (tokens : List Token) : Prop :=
  ∃ first rest, expected = first :: rest ∧ ∀ token ∈ tokens.head?,
    (first.meet token).map (· ++ rest) = (meet token).map (· ++ others) ∧ ¬ first.BarsCall token

variable {meet : Token → Option (List Expectation)} {others new : List Expectation}
variable {token : Token} {rest : List Token} {kind : TokenKind} {message : String}

namespace Ready

theorem unfinished (ready : Ready meet others expected tokens) : expected ≠ [] := by
  obtain ⟨first, rest, rfl, -⟩ := ready
  exact List.cons_ne_nil _ _

theorem advance_eq (ready : Ready meet others expected (token :: rest)) :
    advance expected token = (meet token).map (· ++ others) := by
  obtain ⟨first, more, rfl, each⟩ := ready
  exact (each token rfl).1

theorem advance (ready : Ready meet others expected (token :: rest))
    (meets : meet token = some new) :
    advance expected token = some (new ++ others) := by
  rw [ready.advance_eq, meets, Option.map_some]

theorem blames (ready : Ready meet others expected (token :: rest)) (sticks : meet token = none) :
    Blames expected (token :: rest) ⟨some token.span.start, message⟩ := by
  obtain ⟨first, more, rfl, each⟩ := ready
  have stuck : first.meet token = none := by
    have same := (each token rfl).1
    rwa [sticks, Option.map_none, Option.map_eq_none_iff] at same
  exact .token [] rfl rfl stuck (each token rfl).2

/-- Only the effect of the next token matters. -/
theorem congr {other : Token → Option (List Expectation)} {more : List Expectation}
    (ready : Ready meet others expected tokens)
    (same : ∀ token ∈ tokens.head?,
      (meet token).map (· ++ others) = (other token).map (· ++ more)) :
    Ready other more expected tokens := by
  obtain ⟨first, rest, expected_eq, each⟩ := ready
  exact ⟨first, rest, expected_eq,
    fun token member => ⟨(each token member).1.trans (same token member), (each token member).2⟩⟩

end Ready

theorem ready_meet (first : Expectation) (other : ∀ closer, first ≠ .named true closer) :
    Ready first.meet others (first :: others) tokens :=
  ⟨first, others, rfl, fun _ _ => ⟨rfl, fun bars => bars.1.elim other⟩⟩

theorem follows_expect (new : List Expectation) (ready : Ready meet others expected tokens)
    (meets : ∀ token, token.kind = kind → meet token = some new)
    (sticks : ∀ token ∈ tokens.head?, token.kind ≠ kind → meet token = none) :
    Follows (expect kind message) expected tokens fun token left rest =>
      left = new ++ others ∧ tokens = token :: rest := by
  have follows : Follows (expect kind message >>= fun token => Pure.pure token) expected tokens
      fun token left rest => left = new ++ others ∧ tokens = token :: rest := by
    refine .expect ready.unfinished (fun token rest tokens_eq same => ?_)
      fun token rest message tokens_eq other => ?_
    · subst tokens_eq
      exact .inl ⟨_, ready.advance (meets token same), .pure ⟨rfl, rfl⟩⟩
    · subst tokens_eq
      exact ready.blames (sticks token rfl other)
  rwa [bind_pure] at follows

theorem follows_taken {left : List Expectation} (same : token.kind = kind)
    (reads : advance expected token = some left) :
    Follows (expect kind message) expected (token :: rest) fun _ after more =>
      after = left ∧ more = rest := by
  rw [Follows, expect_cons same]
  exact ⟨[token], left, rfl, by simp [reads], rfl, rfl⟩

theorem follows_token : Follows (expect kind message) (.token kind :: others) tokens
    fun token left rest => left = others ∧ tokens = token :: rest :=
  follows_expect [] (ready_meet (.token kind) (by simp))
    (fun _ same => by simp [Expectation.meet, same])
    fun _ _ other => by simp [Expectation.meet, other]

theorem follows_identifier : Follows identifier (.token .identifier :: others) tokens
    fun _ left _ => left = others :=
  follows_token.bind fun _ _ _ _ holds => .pure holds.1

theorem follows_dimension : Follows dimension (.dimension :: others) tokens
    fun _ left _ => left = others := by
  have ready : ∀ tokens, Ready Expectation.dimension.meet others (.dimension :: others) tokens :=
    fun _ => ready_meet .dimension (by simp)
  refine .expect (ready tokens).unfinished (fun token rest tokens_eq number => ?_)
    fun token rest message tokens_eq other => ?_
  · split
    · rename_i value parsed
      have meets : Expectation.dimension.meet token = some [] := by
        simp [Expectation.meet, number, parsed]
      exact .inl ⟨_, (ready (token :: rest)).advance meets, .pure rfl⟩
    · rename_i parsed
      have sticks : Expectation.dimension.meet token = none := by
        simp [Expectation.meet, number, parsed]
      exact .inr ⟨_, rfl, (ready _).blames sticks⟩
  · subst tokens_eq
    refine (ready _).blames ?_
    simp only [Expectation.meet]

/-! ### Lists -/

section Lists

variable {item : Parser α} {start : List Expectation} {limit : Nat}

private theorem follows_moreItems
    (comma : ∀ token, token.kind = .comma → (meet token).map (· ++ others) = some start)
    (each : ∀ tokens, tokens.length ≤ limit →
      Follows item start tokens fun _ => Ready meet others)
    {bound : Nat} (enough : tokens.length ≤ bound) (short : tokens.length ≤ limit)
    (ready : Ready meet others expected tokens) :
    Follows (moreItems item bound) expected tokens fun _ left rest =>
      Ready meet others left rest ∧ ∀ token ∈ rest.head?, token.kind ≠ .comma := by
  induction bound generalizing expected tokens with
  | zero =>
      obtain rfl := List.length_eq_zero_iff.mp (Nat.le_zero.mp enough)
      exact .pure ⟨ready, by simp⟩
  | succ bound induction =>
      refine .isNext (fun next => ?_) fun other => .pure ⟨ready, other⟩
      obtain ⟨token, rest, rfl, separates⟩ := next
      rw [List.length_cons] at enough short
      refine .skip (ready.advance_eq.trans (comma token separates)) ?_
      refine (each rest (by omega)).bind fun first left after suffix again => ?_
      have shorter := suffix.length_le
      refine (induction (by omega) (by omega) again).bind fun more left rest _ done => ?_
      exact .pure done

theorem follows_commaSeparated
    (comma : ∀ token, token.kind = .comma → (meet token).map (· ++ others) = some start)
    (each : ∀ tokens, tokens.length ≤ limit →
      Follows item start tokens fun _ => Ready meet others)
    (short : tokens.length ≤ limit)
    (first : Follows item expected tokens fun _ => Ready meet others) :
    Follows (commaSeparated item) expected tokens fun _ left rest =>
      Ready meet others left rest ∧ ∀ token ∈ rest.head?, token.kind ≠ .comma := by
  refine first.bind fun value left rest suffix ready => .get ?_
  have shorter := suffix.length_le
  refine (follows_moreItems comma each (Nat.le_refl _) (by omega) ready).bind fun _ _ _ _ done => ?_
  exact .pure done

end Lists

/-! ### Literals -/

private theorem follows_literalOf {element : Parser Literal} {limit : Nat}
    (each : ∀ tokens expected others, tokens.length ≤ limit →
      Ready Token.startLiteral others expected tokens →
        Follows element expected tokens fun _ left _ => left = others)
    (short : tokens.length ≤ limit + 1) (ready : Ready Token.startLiteral others expected tokens) :
    Follows (literalOf element) expected tokens fun _ left _ => left = others := by
  refine .next (fun _ => ready.unfinished) fun token rest tokens_eq => ?_
  subst tokens_eq
  rw [List.length_cons] at short
  split
  · rename_i number
    split
    · rename_i value parsed
      have meets : token.startLiteral = some [] := by simp [Token.startLiteral, number, parsed]
      exact .inl ⟨_, ready.advance meets, .pure rfl⟩
    · rename_i parsed
      have sticks : token.startLiteral = none := by simp [Token.startLiteral, number, parsed]
      exact .inr ⟨_, rfl, ready.blames sticks⟩
  · rename_i opens
    have meets : token.startLiteral = some [.literal, .furtherElements] := by
      simp [Token.startLiteral, opens]
    refine .inl ⟨_, ready.advance meets, ?_⟩
    have elements : ∀ tokens, tokens.length ≤ limit →
        Follows element (.literal :: .furtherElements :: others) tokens
          fun _ => Ready Expectation.furtherElements.meet others := fun tokens short =>
      (each tokens _ (.furtherElements :: others) short
        (ready_meet .literal (by simp))).mono fun _ _ _ left_eq =>
          left_eq ▸ ready_meet .furtherElements (by simp)
    refine (follows_commaSeparated (fun token comma => by simp [Expectation.meet, comma]) elements
      (by omega) (elements rest (by omega))).bind fun trees left rest _ listed => ?_
    obtain ⟨more, last⟩ := listed
    refine (follows_expect [] more (fun token closes => by simp [Expectation.meet, closes])
      fun token next other => ?_).bind fun _ _ _ _ closed => .pure closed.1
    have separate := last token next
    simp only [Expectation.meet]
  · have sticks : token.startLiteral = none := by simp only [Token.startLiteral]
    exact .inr ⟨_, rfl, ready.blames sticks⟩

private theorem follows_literalWithin {depth : Nat} (enough : tokens.length ≤ depth)
    (ready : Ready Token.startLiteral others expected tokens) :
    Follows (literalWithin depth) expected tokens fun _ left _ => left = others := by
  induction depth generalizing tokens expected others with
  | zero =>
      obtain rfl := List.length_eq_zero_iff.mp (Nat.le_zero.mp enough)
      exact Blames.ends rfl ready.unfinished
  | succ depth induction =>
      exact follows_literalOf (fun _ _ _ => induction) enough ready

theorem follows_literal (ready : Ready Token.startLiteral others expected tokens) :
    Follows literal expected tokens fun _ left _ => left = others :=
  follows_literalWithin (Nat.le_refl tokens.length) ready

/-! ### Expressions -/

section Chains

variable {operand : Parser Expression} {operator? : TokenKind → Option Operator}
variable {closer : Closer} {limit : Nat} {holds : List Token → Prop}

/-- What the tokens of an expression may go on with after an operand. -/
def Chained (closer : Closer) (others expected : List Expectation) (tokens : List Token) : Prop :=
  Ready (fun token => closer.operate token.kind) others expected tokens

private theorem follows_chainFrom
    (links : ∀ kind, (operator? kind).isSome → closer.operate kind = some [.operand closer])
    (each : ∀ tokens, tokens.length ≤ limit → Follows operand (.operand closer :: others) tokens
      fun _ left rest => Chained closer others left rest ∧ holds rest)
    {bound : Nat} (enough : tokens.length ≤ bound) (short : tokens.length ≤ limit)
    (chained : Chained closer others expected tokens) (held : holds tokens) (first : Expression) :
    Follows (chainFrom operand operator? first bound) expected tokens fun _ left rest =>
      Chained closer others left rest ∧ holds rest ∧
        ∀ token ∈ rest.head?, operator? token.kind = none := by
  induction bound generalizing expected tokens first with
  | zero =>
      obtain rfl := List.length_eq_zero_iff.mp (Nat.le_zero.mp enough)
      exact .pure ⟨chained, held, by simp⟩
  | succ bound induction =>
      refine .get ?_
      cases tokens with
      | nil => exact .pure ⟨chained, held, by simp⟩
      | cons sign rest =>
          rw [List.length_cons] at enough short
          dsimp only
          split
          · rename_i none
            exact .pure ⟨chained, held, by simpa using none⟩
          · rename_i operator found
            have meets := links sign.kind (by rw [found, Option.isSome_some])
            refine .skip (Ready.advance chained meets) ?_
            refine (each rest (by omega)).bind fun right left after suffix linked => ?_
            obtain ⟨again, kept⟩ := linked
            have shorter := suffix.length_le
            exact induction (by omega) (by omega) again kept _

theorem follows_chain
    (links : ∀ kind, (operator? kind).isSome → closer.operate kind = some [.operand closer])
    (each : ∀ tokens, tokens.length ≤ limit → Follows operand (.operand closer :: others) tokens
      fun _ left rest => Chained closer others left rest ∧ holds rest)
    (short : tokens.length ≤ limit)
    (first : Follows operand expected tokens
      fun _ left rest => Chained closer others left rest ∧ holds rest) :
    Follows (chain operand operator?) expected tokens fun _ left rest =>
      Chained closer others left rest ∧ holds rest ∧
        ∀ token ∈ rest.head?, operator? token.kind = none := by
  refine first.bind fun value left rest suffix linked => .get ?_
  obtain ⟨chained, held⟩ := linked
  have shorter := suffix.length_le
  exact follows_chainFrom links each (Nat.le_refl _) (by omega) chained held value

end Chains

/-- An operand starts, or a statement does with the name `print` that is not called. -/
inductive Opens (closer : Closer) (others expected : List Expectation) (tokens : List Token) :
    Prop where
  | operand (ready : Ready (fun token => token.startOperand closer) others expected tokens)
  | printing {word : Token} {rest : List Token} (tokens_eq : tokens = word :: rest)
      (name : word.kind = .identifier) (statement : closer = .semicolon)
      (reads : advance expected word = some (.printing :: others)) (unfinished : expected ≠ [])
      (uncalled : ∀ next ∈ rest.head?, next.kind ≠ .openParen)

section Operands

variable {closer : Closer} {limit : Nat} {operand inner : Parser Expression}

theorem Opens.unfinished (opens : Opens closer others expected tokens) : expected ≠ [] := by
  cases opens with
  | operand ready => exact ready.unfinished
  | printing _ _ _ _ unfinished => exact unfinished

/-- Unless it starts with a name, the operand is expected as such. -/
theorem Opens.ready (opens : Opens closer others expected (token :: rest))
    (other : token.kind ≠ .identifier) :
    Ready (fun token => token.startOperand closer) others expected (token :: rest) := by
  cases opens with
  | operand ready => exact ready
  | printing tokens_eq name =>
      obtain ⟨rfl, -⟩ := List.cons.inj tokens_eq
      exact absurd name other

/-- After a name that is not called, an operand goes on as after any other. -/
theorem Opens.name (opens : Opens closer others expected (token :: rest))
    (name : token.kind = .identifier) (uncalled : ∀ next ∈ rest.head?, next.kind ≠ .openParen) :
    ∃ left, advance expected token = some left ∧ Chained closer others left rest := by
  cases opens with
  | operand ready =>
      have meets : token.startOperand closer = some [.named (token.text == "print") closer] := by
        simp [Token.startOperand, name]
      refine ⟨_, ready.advance meets, _, others, rfl, fun next member => ⟨?_, fun bars => ?_⟩⟩
      · have other := uncalled next member
        simp only [Expectation.meet]
      · exact uncalled next member bars.2
  | printing tokens_eq _ statement reads =>
      obtain ⟨rfl, rfl⟩ := List.cons.inj tokens_eq
      subst statement
      refine ⟨_, reads, _, _, rfl, fun next member => ⟨?_, fun bars => ?_⟩⟩
      · have other := uncalled next member
        simp only [Expectation.meet]
      · exact uncalled next member bars.2

/-- Where an operand starts, an expression does. -/
def FollowsOperand (operand : Parser Expression) (limit : Nat) : Prop :=
  ∀ tokens closer others expected, tokens.length ≤ limit → Opens closer others expected tokens →
    Follows operand expected tokens fun _ => Chained closer others

/-- Where an operand starts, an expression is read up to its end. -/
def FollowsExpression (parser : Parser Expression) (limit : Nat) : Prop :=
  ∀ tokens closer others expected, tokens.length ≤ limit → Opens closer others expected tokens →
    Follows parser expected tokens fun _ => Ready (fun token => closer.close token.kind) others

theorem opens_operand : Opens closer others (.operand closer :: others) tokens :=
  .operand (ready_meet (.operand closer) (by simp))

private theorem operate_of_productOperator? {kind : TokenKind}
    (found : (productOperator? kind).isSome) :
    closer.operate kind = some [.operand closer] := by
  unfold productOperator? at found
  split at found
  · rfl
  · rfl
  · cases found

private theorem operate_of_sumOperator? {kind : TokenKind} (found : (sumOperator? kind).isSome) :
    closer.operate kind = some [.operand closer] := by
  unfold sumOperator? at found
  split at found
  · rfl
  · cases found

private theorem operate_of_none {kind : TokenKind} (product : productOperator? kind = none)
    (sum : sumOperator? kind = none) : closer.operate kind = closer.close kind := by
  unfold Closer.operate
  split
  · cases sum
  · cases product
  · cases product
  · rfl

theorem followsExpression_sumOf (each : FollowsOperand operand limit) :
    FollowsExpression (sumOf operand) limit := by
  intro tokens closer others expected short opens
  have product : ∀ tokens expected, tokens.length ≤ limit → Opens closer others expected tokens →
      Follows (chain operand productOperator?) expected tokens fun _ left rest =>
        Chained closer others left rest ∧
          True ∧ ∀ token ∈ rest.head?, productOperator? token.kind = none :=
    fun tokens expected short opens => follows_chain (fun _ => operate_of_productOperator?)
      (fun tokens short => (each tokens closer others _ short opens_operand).mono
        fun _ _ _ chained => ⟨chained, trivial⟩)
      short ((each tokens closer others _ short opens).mono fun _ _ _ chained => ⟨chained, trivial⟩)
  refine (follows_chain (fun _ => operate_of_sumOperator?)
    (fun tokens short => product tokens _ short opens_operand) short
    (product tokens _ short opens)).mono fun _ left rest linked => ?_
  obtain ⟨chained, ⟨-, last⟩, final⟩ := linked
  exact chained.congr fun token next => by rw [operate_of_none (last token next) (final token next)]

end Operands

/-- A list in parentheses, of which `list` is expected after the opening one. -/
theorem follows_parenthesized {item : Parser α} (list : Expectation)
    (between : Token → Option (List Expectation)) (start left : List Expectation) (limit : Nat)
    (opening : Follows (expect .openParen (quoteName "(")) expected tokens
      fun _ after rest => after = list :: left ∧ rest.length ≤ limit)
    (empty : ∀ token, token.kind = .closeParen → list.meet token = some [])
    (first : ∀ tokens, tokens.length ≤ limit → (∀ token ∈ tokens.head?, token.kind ≠ .closeParen) →
      Follows item (list :: left) tokens fun _ => Ready between left)
    (each : ∀ tokens, tokens.length ≤ limit → Follows item start tokens fun _ => Ready between left)
    (comma : ∀ token, token.kind = .comma → (between token).map (· ++ left) = some start)
    (closes : ∀ token, token.kind = .closeParen → between token = some [])
    (sticks : ∀ token, token.kind ≠ .closeParen → token.kind ≠ .comma → between token = none) :
    Follows (parenthesized item) expected tokens fun _ after _ => after = left := by
  refine opening.bind fun _ after rest _ opened => ?_
  obtain ⟨rfl, short⟩ := opened
  refine .isNext (fun next => ?_) fun other => ?_
  · obtain ⟨token, more, rfl, closing⟩ := next
    have reads : advance (list :: left) token = some left := by simp [advance, empty token closing]
    exact (follows_taken closing reads).bind fun _ _ _ _ closed => .pure closed.1
  · refine (follows_commaSeparated comma each short (first rest short other)).bind
      fun trees after rest _ listed => ?_
    obtain ⟨ready, last⟩ := listed
    exact (follows_expect [] ready closes fun token next other =>
      sticks token other (last token next)).bind fun _ _ _ _ closed => .pure closed.1

section Operands

variable {closer : Closer} {limit : Nat} {inner : Parser Expression}

theorem close_of_eq (closer : Closer) {kind : TokenKind} (closes : kind = closer.kind) :
    closer.close kind = some [] := by
  subst closes
  cases closer <;> rfl

theorem close_of_ne (closer : Closer) {kind : TokenKind} (unclosed : kind ≠ closer.kind)
    (last : closer = .arguments → kind ≠ .comma) : closer.close kind = none := by
  unfold Closer.close
  split <;> simp_all [Closer.kind]

theorem called_or_not (tokens : List Token) :
    (∃ opening rest, tokens = opening :: rest ∧ opening.kind = .openParen) ∨
      ∀ next ∈ tokens.head?, next.kind ≠ .openParen := by
  cases tokens with
  | nil => simp
  | cons first rest => by_cases paren : first.kind = .openParen <;> simp [paren]

theorem follows_arguments (each : FollowsExpression inner limit) {opening : Token}
    (paren : opening.kind = .openParen) (short : rest.length ≤ limit) :
    Follows (parenthesized inner) (.named false closer :: others) (opening :: rest)
      fun _ left _ => left = .operators closer :: others := by
  refine follows_parenthesized .argumentList (fun token => Closer.arguments.close token.kind)
    (.operand .arguments :: .operators closer :: others) (.operators closer :: others) limit ?_
    ?_ ?_ ?_ ?_ ?_ ?_
  · refine (follows_taken paren ?_).mono fun _ left after taken => ⟨taken.1, taken.2 ▸ short⟩
    simp [advance, Expectation.meet, paren]
  · intro token closing
    simp [Expectation.meet, closing]
  · intro tokens short other
    refine each tokens .arguments _ _ short (.operand ?_)
    refine (ready_meet .argumentList (by simp)).congr fun token next => ?_
    have unclosed := other token next
    simp only [Expectation.meet]
  · exact fun tokens short => each tokens .arguments _ _ short opens_operand
  · intro token comma
    simp [Closer.close, comma]
  · exact fun _ => close_of_eq .arguments
  · exact fun _ unclosed last => close_of_ne .arguments unclosed fun _ => last

theorem follows_name {left : List Expectation} (name : token.kind = .identifier)
    (reads : advance expected token = some left) :
    Follows identifier expected (token :: rest) fun value after more =>
      after = left ∧ more = rest ∧ value = token.identifier := by
  rw [Follows, identifier_cons name]
  exact ⟨[token], left, rfl, by simp [reads], rfl, rfl, rfl⟩

/-- A name that is called is expected as the start of an operand. -/
theorem Opens.called {opening : Token}
    (opens : Opens closer others expected (token :: opening :: rest))
    (name : token.kind = .identifier) (paren : opening.kind = .openParen) :
    advance expected token = some (.named (token.text == "print") closer :: others) := by
  cases opens with
  | operand ready =>
      have meets : token.startOperand closer = some [.named (token.text == "print") closer] := by
        simp [Token.startOperand, name]
      exact ready.advance meets
  | printing tokens_eq _ _ _ _ uncalled =>
      obtain ⟨-, rfl⟩ := List.cons.inj tokens_eq
      exact absurd paren (uncalled opening rfl)

theorem follows_constant (opens : Opens closer others expected (token :: rest))
    (ungrouped : token.kind ≠ .openParen) (unnamed : token.kind ≠ .identifier) :
    Follows (do return Expression.literal (← literal)) expected (token :: rest)
      fun _ => Chained closer others := by
  have ready : Ready Token.startLiteral (.operators closer :: others) expected (token :: rest) := by
    refine (opens.ready unnamed).congr fun first next => ?_
    obtain rfl := Option.some.inj next
    simp only [Token.startOperand]
    cases token.startLiteral <;> simp
  refine (follows_literal ready).bind fun value left rest _ left_eq => .pure ?_
  exact left_eq ▸ ready_meet (.operators closer) (by simp)

private theorem follows_group (each : FollowsExpression inner limit) (short : rest.length ≤ limit)
    (opens : Opens closer others expected (token :: rest)) (paren : token.kind = .openParen) :
    Follows
      (do
        skip
        let expression ← inner
        let _ ← expect .closeParen (quoteName ")")
        return expression)
      expected (token :: rest) fun _ => Chained closer others := by
  have meets : token.startOperand closer = some [.operand .group, .operators closer] := by
    simp [Token.startOperand, paren]
  refine .skip ((opens.ready (by simp [paren])).advance meets) ?_
  refine (each rest .group _ _ short opens_operand).bind fun value left after _ ready => ?_
  refine (follows_expect [] ready (fun _ => close_of_eq .group) fun _ _ unclosed =>
    close_of_ne .group unclosed (by simp)).bind fun _ left _ _ closed => .pure ?_
  exact closed.1 ▸ ready_meet (.operators closer) (by simp)

private theorem follows_named (each : FollowsExpression inner limit) (short : rest.length ≤ limit)
    (opens : Opens closer others expected (token :: rest)) (name : token.kind = .identifier) :
    Follows
      (do
        let name ← identifier
        if ← isNext .openParen then
          if name.name = "print" then
            refuseAt token (quoteName "print" ++ " can only be used as a statement")
          else
            let (arguments, close) ← parenthesized inner
            return Expression.call (name.span.to close.span) name arguments
        else
          return Expression.identifier name)
      expected (token :: rest) fun _ => Chained closer others := by
  rcases called_or_not rest with ⟨opening, after, rfl, paren⟩ | uncalled
  · have reads := opens.called name paren
    by_cases print : token.identifier.name = "print"
    · rw [Follows, bind_eq (identifier_cons name), bind_isNext]
      simp only [List.head?_cons, Option.any_some, paren, BEq.rfl, ↓reduceIte]
      rw [if_pos print]
      rw [show token.text = "print" from print] at reads
      exact .print [] rfl name print paren (by simpa using reads)
    · rw [show (token.text == "print") = false from beq_eq_false_iff_ne.mpr print] at reads
      refine (follows_name name reads).bind fun value left more _ named => ?_
      obtain ⟨rfl, rfl, rfl⟩ := named
      refine .isNext (fun _ => ?_) fun other => absurd paren (other opening rfl)
      rw [if_pos rfl, if_neg print]
      rw [List.length_cons] at short
      refine (follows_arguments each paren (by omega)).bind fun _ left _ _ left_eq => .pure ?_
      exact left_eq ▸ ready_meet (.operators closer) (by simp)
  · obtain ⟨left, reads, chained⟩ := opens.name name uncalled
    refine (follows_name name reads).bind fun value after more _ named => ?_
    obtain ⟨rfl, rfl, -⟩ := named
    refine .isNext (fun next => ?_) fun _ => .pure chained
    obtain ⟨opening, _, rfl, paren⟩ := next
    exact absurd paren (uncalled opening rfl)

private theorem follows_operandOf (each : FollowsExpression inner limit) :
    FollowsOperand (operandOf inner) (limit + 1) := by
  intro tokens closer others expected short opens
  refine .peek opens.unfinished fun first rest tokens_eq => ?_
  subst tokens_eq
  have shorter : rest.length ≤ limit := Nat.le_of_succ_le_succ short
  split
  · rename_i number
    exact follows_constant opens (by simp [number]) (by simp [number])
  · rename_i bracket
    exact follows_constant opens (by simp [bracket]) (by simp [bracket])
  · rename_i paren
    exact follows_group each shorter opens paren
  · rename_i name
    exact follows_named each shorter opens name
  · refine Ready.blames (opens.ready (by assumption)) ?_
    simp only [Token.startOperand, Token.startLiteral, Option.map_none]

private theorem followsOperand_operandWithin (depth : Nat) :
    FollowsOperand (operandWithin depth) depth := by
  induction depth with
  | zero =>
      intro tokens closer others expected short opens
      obtain rfl := List.length_eq_zero_iff.mp (Nat.le_zero.mp short)
      exact Blames.ends rfl opens.unfinished
  | succ depth induction => exact follows_operandOf (followsExpression_sumOf induction)

end Operands

theorem follows_expression {closer : Closer} (opens : Opens closer others expected tokens) :
    Follows expression expected tokens
      fun _ => Ready (fun token => closer.close token.kind) others := by
  have follows := followsExpression_sumOf (followsOperand_operandWithin tokens.length)
  rw [expression]
  exact .get (follows tokens closer others expected (Nat.le_refl _) opens)

/-! ### Statements -/

private theorem follows_shapeClause (opens : token.kind = .lessThan) :
    Follows shapeClause (.declared :: others) (token :: rest)
      fun _ left _ => left = .token .equals :: .operand .semicolon :: others := by
  have dimensions : ∀ others tokens, Follows dimension (.dimension :: .furtherDimensions :: others)
      tokens fun _ => Ready Expectation.furtherDimensions.meet others := fun others tokens =>
    follows_dimension.mono fun _ _ _ left_eq => left_eq ▸ ready_meet .furtherDimensions (by simp)
  have meets : advance (.declared :: others) token = some
      (.dimension :: .furtherDimensions :: .token .equals :: .operand .semicolon :: others) := by
    simp [advance, Expectation.meet, opens]
  refine (follows_taken opens meets).bind fun _ _ after _ taken => ?_
  obtain ⟨rfl, -⟩ := taken
  refine (follows_commaSeparated (fun token comma => by simp [Expectation.meet, comma])
    (fun tokens _ => dimensions _ tokens) (Nat.le_refl _) (dimensions _ after)).bind
      fun _ _ _ _ listed => ?_
  obtain ⟨ready, last⟩ := listed
  refine (follows_expect [] ready (fun token closes => by simp [Expectation.meet, closes])
    fun token next other => ?_).bind fun _ _ _ _ closed => .pure closed.1
  have separate := last token next
  simp only [Expectation.meet]

theorem follows_initializer {make : Expression → Declaration}
    (meet : Token → Option (List Expectation))
    (ready : Ready meet others expected tokens)
    (initializes : ∀ token ∈ tokens.head?, token.kind = .equals →
      meet token = some [.operand .semicolon])
    (sticks : ∀ token ∈ tokens.head?, token.kind ≠ .equals → meet token = none) :
    Follows (do
      let equals ← next (quoteName "=")
      if equals.kind = .equals then
        let initializer ← expression
        return make initializer
      else
        refuseAt equals message) expected tokens fun _ =>
      Ready (fun token => Closer.semicolon.close token.kind) others := by
  refine .next (fun _ => ready.unfinished) fun equals rest tokens_eq => ?_
  subst tokens_eq
  split
  · rename_i same
    refine .inl ⟨_, ready.advance (initializes equals rfl same), ?_⟩
    exact (follows_expression opens_operand).bind fun _ _ _ _ closes => .pure closes
  · rename_i other
    exact .inr ⟨_, rfl, ready.blames (sticks equals rfl other)⟩

theorem follows_declaration (starts : token.kind = .keyword .varWord) :
    Follows declaration (.statements :: others) (token :: rest) fun _ =>
      Ready (fun token => Closer.semicolon.close token.kind) (.statements :: others) := by
  have meets : advance (.statements :: others) token =
      some (.token .identifier :: .declared :: .statements :: others) := by
    simp [advance, Expectation.meet, Token.startStatement, starts]
  refine (follows_taken starts meets).bind fun _ _ _ _ taken => ?_
  obtain ⟨rfl, -⟩ := taken
  refine follows_identifier.bind fun name left rest _ left_eq => ?_
  subst left_eq
  refine .isNext (fun next => ?_) fun bare => ?_
  · obtain ⟨opening, more, rfl, shaped⟩ := next
    extract_lets go_on
    rw [if_pos rfl]
    have clause : Follows (some <$> shapeClause) (.declared :: .statements :: others)
        (opening :: more) fun _ left _ =>
          left = .token .equals :: .operand .semicolon :: .statements :: others :=
      .map (follows_shapeClause shaped)
    refine clause.bind fun shape left rest _ left_eq => ?_
    subst left_eq
    refine follows_initializer
      (fun token => if token.kind = .equals then some [.operand .semicolon] else none)
      ((ready_meet (.token .equals) (by simp)).congr fun token _ => ?_)
      (fun token _ same => if_pos same) fun token _ other => if_neg other
    rw [Expectation.meet]
    split <;> rfl
  · extract_lets go_on
    rw [if_neg Bool.false_ne_true]
    refine follows_initializer Expectation.declared.meet (ready_meet .declared (by simp))
      (fun token _ same => by simp [Expectation.meet, same]) fun token next other => ?_
    have unshaped := bare token next
    simp only [Expectation.meet]

theorem startsPrint_cons {word : Token} :
    startsPrint (word :: rest) = true ↔
      word.text = "print" ∧
        ∃ opening after, rest = opening :: after ∧ opening.kind = .openParen := by
  cases rest <;> simp [startsPrint]

theorem opens_statement (name : token.text = "print" → token.kind = .identifier)
    (inner : token.kind ≠ .closeBrace) (value : token.kind ≠ .keyword .varWord)
    (stays : token.kind ≠ .keyword .returnWord) (evaluates : startsPrint (token :: rest) = false) :
    Opens .semicolon (.statements :: others) (.statements :: others) (token :: rest) := by
  by_cases print : token.text = "print"
  · refine .printing rfl (name print) rfl ?_ (List.cons_ne_nil _ _) fun next member paren => ?_
    · simp [advance, Expectation.meet, Token.startStatement, name print, print]
    · obtain ⟨after, rfl⟩ := List.head?_eq_some_iff.mp member
      exact absurd (startsPrint_cons.mpr ⟨print, next, after, rfl, paren⟩)
        (ne_true_of_eq_false evaluates)
  · refine .operand ((ready_meet .statements (by simp)).congr fun next member => ?_)
    obtain rfl := Option.some.inj member
    simp only [Expectation.meet, Token.startStatement]
    split
    · exact absurd ‹_› inner
    · exact absurd ‹_› value
    · exact absurd ‹_› stays
    · simp [Token.startOperand, *]
    · rw [Option.map_map]
      congr 1
      funext left
      simp

/-- After an expression statement or a print statement, the semicolon is next. -/
def FollowsAction (parser : Parser α) (others expected : List Expectation) (tokens : List Token) :
    Prop :=
  Follows parser expected tokens fun _ =>
    Ready (fun token => Closer.semicolon.close token.kind) (.statements :: others)

private theorem follows_returned : FollowsAction
    (do
      let value ← if ← isNext .semicolon then pure none else some <$> expression
      return (token.span, Action.leave value))
    others (.returned :: .statements :: others) tokens := by
  refine .isNext (fun next => ?_) fun other => ?_
  · obtain ⟨semicolon, more, rfl, ends⟩ := next
    refine .pure ((ready_meet .returned (by simp)).congr fun token member => ?_)
    obtain rfl := Option.some.inj member
    simp [Expectation.meet, Closer.close, ends]
  · have opens : Opens .semicolon (.statements :: others) (.returned :: .statements :: others)
        tokens := by
      refine .operand ((ready_meet .returned (by simp)).congr fun token member => ?_)
      have unended := other token member
      simp only [Expectation.meet]
    have value : FollowsAction (some <$> expression) others (.returned :: .statements :: others)
        tokens := .map (follows_expression opens)
    exact value.bind fun _ _ _ _ closes => .pure closes

private theorem follows_printed : FollowsAction
    (do
      let value ← expression
      let _ ← expect .closeParen (quoteName ")")
      return (token.span, Action.print value))
    others (.operand .group :: .token .semicolon :: .statements :: others) tokens := by
  refine (follows_expression opens_operand).bind fun _ _ _ _ ready => ?_
  refine (follows_expect [] ready (fun _ => close_of_eq .group) fun _ _ unclosed =>
    close_of_ne .group unclosed (by simp)).bind fun _ _ _ _ taken => .pure ?_
  obtain ⟨rfl, -⟩ := taken
  refine (ready_meet (.token .semicolon) (by simp)).congr fun token _ => ?_
  rw [Expectation.meet]
  split
  · rw [close_of_eq .semicolon ‹_›]
  · rw [close_of_ne .semicolon ‹_› (by simp)]

private theorem follows_action
    (genuine : ∀ token ∈ tokens, token.text = "print" → token.kind = .identifier)
    (inner : ∀ token ∈ tokens.head?, token.kind ≠ .closeBrace) :
    FollowsAction action others (.statements :: others) tokens := by
  refine .peek (List.cons_ne_nil _ _) fun first rest tokens_eq => ?_
  subst tokens_eq
  split
  · rename_i value
    exact (follows_declaration value).bind fun _ _ _ _ closes => .pure closes
  · rename_i leaves
    have reads :
        advance (.statements :: others) first = some (.returned :: .statements :: others) := by
      simp [advance, Expectation.meet, Token.startStatement, leaves]
    exact .skip reads follows_returned
  · refine .get ?_
    split
    · rename_i prints
      obtain ⟨print, opening, after, rfl, paren⟩ := startsPrint_cons.mp prints
      have called : advance (.statements :: others) first =
          some (.printing :: .statements :: others) := by
        simp [advance, Expectation.meet, Token.startStatement, genuine first (by simp) print, print]
      have opened : advance (.printing :: .statements :: others) opening =
          some (.operand .group :: .token .semicolon :: .statements :: others) := by
        simp [advance, Expectation.meet, paren]
      refine .skip called ((follows_taken paren opened).bind fun _ _ _ _ taken => ?_)
      exact taken.1 ▸ follows_printed
    · rename_i evaluates
      refine (follows_expression
        (opens_statement (genuine first (by simp)) (inner first rfl) ‹_› ‹_›
        (eq_false_of_ne_true evaluates))).bind fun _ _ _ _ closes => .pure closes

private theorem follows_statement
    (genuine : ∀ token ∈ tokens, token.text = "print" → token.kind = .identifier)
    (inner : ∀ token ∈ tokens.head?, token.kind ≠ .closeBrace) :
    Follows statement (.statements :: others) tokens fun _ left rest =>
      left = .statements :: others ∧ rest.length < tokens.length := by
  refine (follows_action genuine inner).bind fun _ _ rest suffix ready => ?_
  refine (follows_expect [] ready (fun _ => close_of_eq .semicolon) fun _ _ unended =>
    close_of_ne .semicolon unended (by simp)).bind fun _ _ after _ taken => .pure ⟨taken.1, ?_⟩
  have shorter := suffix.length_le
  rw [taken.2, List.length_cons] at shorter
  exact shorter

private theorem follows_statements {bound : Nat} (enough : tokens.length ≤ bound)
    (genuine : ∀ token ∈ tokens, token.text = "print" → token.kind = .identifier) :
    Follows (statements bound) (.statements :: others) tokens fun _ left rest =>
      left = .statements :: others ∧
        ∃ brace after, rest = brace :: after ∧ brace.kind = .closeBrace := by
  induction bound generalizing tokens with
  | zero =>
      obtain rfl := List.length_eq_zero_iff.mp (Nat.le_zero.mp enough)
      exact Blames.ends rfl (List.cons_ne_nil _ _)
  | succ bound induction =>
      refine .peek (List.cons_ne_nil _ _) fun first rest tokens_eq => ?_
      subst tokens_eq
      split
      · exact .pure ⟨rfl, first, rest, rfl, ‹_›⟩
      · rename_i inner
        refine (follows_statement genuine (by simpa using inner)).bind
          fun _ _ after suffix taken => ?_
        obtain ⟨rfl, shorter⟩ := taken
        refine (induction (by omega) fun token member => genuine token (suffix.subset member)).bind
          fun _ _ _ _ done => .pure done

private theorem follows_block
    (genuine : ∀ token ∈ tokens, token.text = "print" → token.kind = .identifier) :
    Follows block (.token .openBrace :: .statements :: others) tokens fun _ left _ =>
      left = others := by
  refine follows_token.bind fun _ _ rest suffix taken => ?_
  obtain ⟨rfl, -⟩ := taken
  refine .get ((follows_statements (Nat.le_refl _)
    fun token member => genuine token (suffix.subset member)).bind fun _ left after _ closes => ?_)
  obtain ⟨rfl, brace, final, rfl, kind⟩ := closes
  refine (follows_taken kind ?_).bind fun _ _ _ _ taken => .pure taken.1
  simp [advance, Expectation.meet, Token.startStatement, kind]

/-! ### Functions -/

private theorem follows_parameters {left : List Expectation} :
    Follows (parenthesized identifier) (.token .openParen :: .parameters :: left) tokens
      fun _ after _ => after = left := by
  refine follows_parenthesized .parameters Expectation.furtherParameters.meet
    (.token .identifier :: .furtherParameters :: left) left tokens.length ?_ ?_ ?_ ?_ ?_ ?_ ?_
  · refine follows_token.mono fun _ _ rest taken => ⟨taken.1, ?_⟩
    rw [taken.2, List.length_cons]
    omega
  · intro token closing
    simp [Expectation.meet, closing]
  · intro tokens _ other
    refine (follows_expect [.furtherParameters] (ready_meet .parameters (by simp))
      (fun token name => by simp [Expectation.meet, name]) fun token next unnamed => ?_).bind
        fun _ _ _ _ taken => .pure (taken.1 ▸ ready_meet .furtherParameters (by simp))
    have unclosed := other token next
    simp only [Expectation.meet]
  · exact fun tokens _ => follows_identifier.mono fun _ _ _ left_eq =>
      left_eq ▸ ready_meet .furtherParameters (by simp)
  · intro token comma
    simp [Expectation.meet, comma]
  · intro token closing
    simp [Expectation.meet, closing]
  · intro token unclosed last
    simp only [Expectation.meet]

private theorem follows_functionDefinition (more : tokens ≠ [])
    (genuine : ∀ token ∈ tokens, token.text = "print" → token.kind = .identifier) :
    Follows functionDefinition [] tokens fun _ left rest =>
      left = [] ∧ rest.length < tokens.length := by
  refine .next (fun none => absurd none more) fun keyword rest tokens_eq => ?_
  subst tokens_eq
  split
  · rename_i defines
    have starts : advance [] keyword = some
        [.token .identifier, .token .openParen, .parameters, .token .openBrace, .statements] := by
      rcases defines with word | word <;> simp [advance, Token.startFunction, word]
    refine .inl ⟨_, starts, follows_identifier.bind fun _ left after named left_eq => ?_⟩
    subst left_eq
    refine follows_parameters.bind fun _ left body listed left_eq => ?_
    subst left_eq
    refine (follows_block fun token member => genuine token ?_).bind fun _ _ final closed left_eq =>
      .pure ⟨left_eq, ?_⟩
    · exact List.mem_cons_of_mem _ (named.subset (listed.subset member))
    · have shorter := ((closed.trans listed).trans named).length_le
      rw [List.length_cons]
      omega
  · rename_i other
    refine .inr ⟨_, rfl, .function [] rfl rfl ?_⟩
    simp only [Token.startFunction]
    split
    · exact absurd (.inl ‹_›) other
    · exact absurd (.inr ‹_›) other
    · rfl

private theorem follows_functionDefinitions {bound : Nat} (enough : tokens.length ≤ bound)
    (genuine : ∀ token ∈ tokens, token.text = "print" → token.kind = .identifier) :
    Follows (functionDefinitions bound) [] tokens fun _ left rest => left = [] ∧ rest = [] := by
  induction bound generalizing tokens with
  | zero =>
      obtain rfl := List.length_eq_zero_iff.mp (Nat.le_zero.mp enough)
      exact .pure ⟨rfl, rfl⟩
  | succ bound induction =>
      refine .get ?_
      split
      · exact .pure ⟨rfl, List.isEmpty_iff.mp ‹_›⟩
      · rename_i more
        refine (follows_functionDefinition (fun none => more (List.isEmpty_iff.mpr none))
          genuine).bind fun _ left rest suffix taken => ?_
        obtain ⟨rfl, shorter⟩ := taken
        exact (induction (by omega) fun token member => genuine token (suffix.subset member)).bind
          fun _ _ _ _ done => .pure done

theorem follows_program
    (genuine : ∀ token ∈ tokens, token.text = "print" → token.kind = .identifier) :
    Follows program [] tokens fun _ left rest => left = [] ∧ rest = [] :=
  .get ((follows_functionDefinitions (Nat.le_refl _) genuine).bind fun _ _ _ _ done => .pure done)

end Parser

section Texts

variable {tokens : List Token}

/-- A text that is no program is blamed where the automaton gets stuck. -/
theorem Program.blames_of_error {rejection : Rejection}
    (genuine : ∀ token ∈ tokens, token.text = "print" → token.kind = .identifier)
    (refused : Program.ofTokens tokens = .error rejection) : Blames [] tokens rejection := by
  have follows := Parser.follows_program genuine
  rw [Parser.Follows] at follows
  rw [ofTokens, StateT.run'_eq, StateT.run] at refused
  cases parsed : Parser.program tokens with
  | ok found => rw [parsed] at refused; cases refused
  | error cause =>
      rw [parsed] at refused follows
      cases refused
      exact follows

/-- The programs are the texts that meet all that is expected. -/
theorem Program.exists_ofTokens_iff
    (genuine : ∀ token ∈ tokens, token.text = "print" → token.kind = .identifier) :
    (∃ program, Program.ofTokens tokens = .ok program) ↔ run [] tokens = some [] := by
  constructor
  · rintro ⟨program, parsed⟩
    have follows := Parser.follows_program genuine
    rw [Parser.Follows] at follows
    rw [ofTokens, StateT.run'_eq, StateT.run] at parsed
    cases found : Parser.program tokens with
    | error rejection => rw [found] at parsed; cases parsed
    | ok pair =>
        rw [found] at follows
        obtain ⟨used, left, tokens_eq, reads, rfl, rest_eq⟩ := follows
        rwa [tokens_eq, rest_eq, List.append_nil]
  · intro reads
    cases parsed : Program.ofTokens tokens with
    | ok program => exact ⟨program, rfl⟩
    | error rejection => exact absurd reads (Program.blames_of_error genuine parsed).unfinished

end Texts

end TensorLang
