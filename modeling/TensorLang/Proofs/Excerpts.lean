import TensorLang.Proofs.CompiledLocations
import TensorLang.Proofs.Positions

/-!
# Excerpts under diagnostics

The excerpt under a diagnostic shows the line in which the blamed position stands.  The blanks in
front of the caret are as many as there are bytes on the line before the position.  So the caret
stands under the position just if all characters there take one byte.
-/

namespace TensorLang

/-! ### Lines of a text -/

/-- How a line without its terminator ends: with the text, at a line feed, or at a carriage return
and a line feed. -/
inductive LineEnds (line : List Char) : List Char → Prop where
  | text : LineEnds line []
  | feed {rest : List Char} (bare : line.getLast? ≠ some '\r') : LineEnds line ('\n' :: rest)
  | returnFeed {rest : List Char} : LineEnds line ('\r' :: '\n' :: rest)

/-- The characters between the others are one line, without its terminator. -/
structure IsLine (before line after : List Char) : Prop where
  /-- The line starts with the text or after a line feed. -/
  starts : ∀ last ∈ before.getLast?, last = '\n'
  /-- It is a single line. -/
  single : '\n' ∉ line
  /-- The line ends there. -/
  ends : LineEnds line after

section Lines

variable {before line after started : List Char}

private theorem linesFrom_append (single : '\n' ∉ line) (started rest : List Char) :
    linesFrom started (line ++ rest) = linesFrom (line.reverse ++ started) rest := by
  induction line generalizing started with
  | nil => rfl
  | cons char line induction =>
      rw [List.mem_cons, not_or] at single
      rw [List.cons_append, linesFrom, induction single.2, List.reverse_cons, List.append_assoc,
        List.singleton_append]
      exact fun feed => single.1 feed.symm

private theorem getElem?_linesFrom_feed (started front rest : List Char) (count : Nat) :
    (linesFrom started (front ++ '\n' :: rest))[front.count '\n' + 1 + count]? =
      (lines rest)[count]? := by
  induction front generalizing started with
  | nil => rw [List.nil_append, linesFrom, List.count_nil, Nat.zero_add, Nat.add_comm,
      List.getElem?_cons_succ, lines]
  | cons char front induction =>
      by_cases feed : char = '\n'
      · subst feed
        have shifted :
            ('\n' :: front).count '\n' + 1 + count = front.count '\n' + 1 + count + 1 := by
          rw [List.count_cons_self]
          omega
        rw [List.cons_append, linesFrom, shifted, List.getElem?_cons_succ, induction]
      · rw [List.cons_append, linesFrom, List.count_cons_of_ne feed, induction]
        exact feed

private theorem head?_lines (single : '\n' ∉ line) (ends : LineEnds line after) :
    (lines (line ++ after))[0]? = if line = [] ∧ after = [] then none else some line := by
  rw [lines, linesFrom_append single, List.append_nil]
  cases ends with
  | text =>
      rw [linesFrom]
      cases line with
      | nil => rfl
      | cons char line => simp
  | feed bare =>
      rw [linesFrom, List.reverse_reverse, trimReturn, if_neg bare]
      simp
  | returnFeed =>
      rw [linesFrom, linesFrom, List.reverse_cons, List.reverse_reverse, trimReturn,
        if_pos (by simp)]
      · simp
      · exact fun feed => absurd feed (by decide)

theorem IsLine.getElem?_lines (isLine : IsLine before line after) :
    (lines (before ++ line ++ after))[before.count '\n']? =
      if line = [] ∧ after = [] then none else some line := by
  rw [← head?_lines isLine.single isLine.ends, List.append_assoc]
  cases before using List.reverseRecOn with
  | nil => rfl
  | append_singleton before last =>
      obtain rfl := isLine.starts last (by simp)
      rw [List.count_append, List.append_assoc, List.singleton_append]
      exact getElem?_linesFrom_feed [] before (line ++ after) 0

/-- What stands behind a position on its line ends where the line does, unless the position is that
of the line feed. -/
theorem exists_back {chars : List Char} (inside : chars.head? ≠ some '\n') :
    ∃ back after, chars = back ++ after ∧ '\n' ∉ back ∧
      ∀ front, LineEnds (front ++ back) after := by
  have split_eq : chars.takeWhile (· ≠ '\n') ++ chars.dropWhile (· ≠ '\n') = chars :=
    List.takeWhile_append_dropWhile
  have single : '\n' ∉ chars.takeWhile (· ≠ '\n') := fun member => by
    simpa using List.mem_takeWhile_imp member
  have feeds := List.head?_dropWhile_not (· ≠ '\n') chars
  generalize chars.takeWhile (· ≠ '\n') = run at split_eq single
  generalize chars.dropWhile (· ≠ '\n') = rest at split_eq feeds
  subst split_eq
  cases rest with
  | nil => exact ⟨run, [], rfl, single, fun _ => .text⟩
  | cons feed rest =>
      obtain rfl : feed = '\n' := by simpa using feeds
      cases run using List.reverseRecOn with
      | nil => exact absurd rfl inside
      | append_singleton run last =>
          rw [List.mem_append, not_or] at single
          -- A carriage return before the line feed belongs to the terminator.
          by_cases carriage : last = '\r'
          · subst carriage
            exact ⟨run, '\r' :: '\n' :: rest, List.append_assoc _ _ _, single.1,
              fun _ => .returnFeed⟩
          · refine ⟨run ++ [last], '\n' :: rest, rfl, ?_, fun front => .feed ?_⟩
            · rw [List.mem_append, not_or]
              exact single
            · rw [← List.append_assoc, List.getLast?_concat]
              exact fun same => carriage (Option.some.inj same)

theorem exists_isLine (early : List Char) {late : List Char} (inside : late.head? ≠ some '\n') :
    ∃ before front back after, early = before ++ front ∧ late = back ++ after ∧
      IsLine before (front ++ back) after := by
  obtain ⟨back, after, late_eq, back_single, ends⟩ := exists_back inside
  have split_eq : (early.reverse.dropWhile (· ≠ '\n')).reverse ++
      (early.reverse.takeWhile (· ≠ '\n')).reverse = early := by
    rw [← List.reverse_append, List.takeWhile_append_dropWhile, List.reverse_reverse]
  refine ⟨_, _, back, after, split_eq.symm, late_eq, ?_, ?_, ends _⟩
  · intro last found
    rw [List.getLast?_reverse] at found
    have feeds := List.head?_dropWhile_not (· ≠ '\n') early.reverse
    rw [found] at feeds
    simpa using feeds
  · rw [List.mem_append, not_or]
    refine ⟨fun member => ?_, back_single⟩
    simpa using List.mem_takeWhile_imp (List.mem_reverse.mp member)

private theorem foldl_placeAfter_of_single (single : '\n' ∉ line) (place : Nat × Nat) :
    line.foldl placeAfter place = (place.1, place.2 + byteCount line) := by
  induction line generalizing place with
  | nil => rfl
  | cons char line induction =>
      rw [List.mem_cons, not_or] at single
      rw [List.foldl_cons, induction single.2, placeAfter, if_neg fun feed => single.1 feed.symm,
        byteCount_cons, Nat.add_assoc]

theorem IsLine.foldl_placeAfter {front back : List Char}
    (isLine : IsLine before (front ++ back) after) :
    (before ++ front).foldl placeAfter (1, 1) = (before.count '\n' + 1, byteCount front + 1) := by
  have single : '\n' ∉ front := fun member => isLine.single (List.mem_append_left _ member)
  have start : before.foldl placeAfter (1, 1) = (before.count '\n' + 1, 1) := by
    refine Prod.ext (foldl_placeAfter_append before []).1 ?_
    cases before using List.reverseRecOn with
    | nil => rfl
    | append_singleton before last =>
        obtain rfl := isLine.starts last (by simp)
        rw [List.foldl_append]
        rfl
  rw [List.foldl_append, start, foldl_placeAfter_of_single single, Nat.add_comm 1]

theorem byteCount_eq_length_iff {chars : List Char} :
    byteCount chars = chars.length ↔ ∀ char ∈ chars, char.utf8Size = 1 := by
  induction chars with
  | nil => simp
  | cons char chars induction =>
      have positive : 0 < char.utf8Size := Char.utf8Size_pos char
      have at_least := length_le_byteCount chars
      rw [List.forall_mem_cons, ← induction, byteCount_cons, List.length_cons]
      omega

end Lines

/-! ### Excerpts -/

/-- So many blanks. -/
def blanks (count : Nat) : String := String.ofList (List.replicate count ' ')

/-- The excerpt of a line with its number, and of a caret behind so many blanks. -/
def excerptOf (ink : Ink) (number : Nat) (line : List Char) (padding : Nat) : String :=
  let gutter := toString number
  let margin := blanks gutter.length ++ " " ++ ink.paint .blue "|"
  margin ++ "\n" ++ ink.paint .blue gutter ++ " " ++ ink.paint .blue "|" ++ " " ++
    String.ofList line ++ "\n" ++ margin ++ " " ++ blanks padding ++ ink.paint .red "^" ++ "\n"

theorem excerptOf_ne_empty (ink : Ink) (number : Nat) (line : List Char) (padding : Nat) :
    excerptOf ink number line padding ≠ "" := by
  simp [excerptOf]

theorem excerptOf_inj {ink : Ink} {number : Nat} {line : List Char} {padding other : Nat} :
    excerptOf ink number line padding = excerptOf ink number line other ↔ padding = other := by
  refine ⟨fun same => ?_, congrArg _⟩
  have length_eq := congrArg String.length same
  simp only [excerptOf, blanks, String.length_append, String.length_ofList,
    List.length_replicate] at length_eq
  omega

namespace Source

variable {source : Source} {location : Location}

theorem blamable_of_compile {stage : Stage} {options : Options} {cause : Cause}
    (refused : (source.compile stage options).outcome = .error (.error ⟨cause, some location⟩)) :
    source.Blamable location := by
  have reached := Compiler.within_artifact source stage options [] (List.forall_mem_nil _)
  rw [compile] at refused
  split at reached
  · rename_i compiled
    rw [compiled] at refused
    cases refused
  · rename_i failed
    rw [failed] at refused
    cases refused
    exact reached.1 location rfl

/-- Neither a lexeme nor what the lexer rejects starts with a line feed. -/
theorem head?_ne_feed {chars rest : List Char} {sort : LexemeClass} {kind : TokenKind}
    (lexeme : IsLexeme sort chars kind) : (chars ++ rest).head? ≠ some '\n' := by
  obtain ⟨first, tail, rfl, of_eq⟩ := lexeme.exists_cons
  intro found
  obtain rfl : first = '\n' := Option.some.inj found
  exact absurd (ink_of_of? of_eq).1 (by decide)

private theorem Blamable.exists_position (blamable : source.Blamable location) :
    ∃ early late, source.contents.toList = early ++ late ∧ late.head? ≠ some '\n' ∧
      source.Shows (byteCount early) location := by
  cases blamable with
  | token marks =>
      obtain ⟨tokens, lexes, token, member, stands⟩ := marks
      have tiles := Token.scan_eq_ok_iff.mp (accept_eq_ok_iff.mp lexes)
      obtain ⟨covered, rest, ⟨before, whole_eq, start_eq, -⟩, -, ⟨⟨sort, lexeme, -⟩, -⟩⟩ :=
        tiles.exact token member
      refine ⟨before, covered ++ rest, ?_, head?_ne_feed lexeme, start_eq ▸ stands⟩
      rw [whole_eq, List.append_assoc]
  | rejected rejects stands =>
      obtain ⟨tokens, front, rest, message, -, whole_eq, rfl, stuck⟩ := rejects
      refine ⟨front, rest, whole_eq, ?_, stands⟩
      cases stuck with
      | unknown ink =>
          intro found
          obtain rfl := Option.some.inj found
          exact absurd ink (by decide)
      | secondPoint lexeme => exact head?_ne_feed lexeme
  | ending _ _ stands =>
      exact ⟨source.contents.toList, [], (List.append_nil _).symm, by simp, stands⟩

/-- The excerpt for a position on a line shows that line, if it is none after the last terminator,
and a caret behind as many blanks as there are bytes before the position. -/
theorem excerpt_eq {before front back after : List Char}
    (whole_eq : source.contents.toList = before ++ (front ++ back) ++ after)
    (isLine : IsLine before (front ++ back) after) (small : source.length + 1 < UInt32.size)
    (shows : source.Shows (byteCount (before ++ front)) location) (ink : Ink) :
    source.excerpt ink location =
      if front ++ back = [] ∧ after = [] then ""
      else excerptOf ink location.line.toNat (front ++ back) (byteCount front) := by
  have split_eq : source.contents.toList = (before ++ front) ++ (back ++ after) := by
    rw [whole_eq]
    simp only [List.append_assoc]
  have place_eq := shows.exact small
  rw [lineColumn?_eq_foldl split_eq, isLine.foldl_placeAfter] at place_eq
  obtain ⟨line_eq, column_eq⟩ := Prod.mk.inj (Option.some.inj place_eq)
  have text_eq : source.line? location.line.toNat =
      if front ++ back = [] ∧ after = [] then none else some (String.ofList (front ++ back)) := by
    rw [line?, ← line_eq, if_neg (Nat.succ_ne_zero _), Nat.add_sub_cancel, whole_eq,
      isLine.getElem?_lines]
    split <;> rfl
  rw [excerpt, text_eq]
  by_cases final : front ++ back = [] ∧ after = []
  · simp only [if_pos final]
  · have padding_eq : location.column.toNat - 1 = byteCount front := by
      rw [← column_eq, Nat.add_sub_cancel]
    simp only [if_neg final, padding_eq, excerptOf, blanks, ← String.append_assoc]
    rfl

/-- The caret under a blamed position.  A located error of a compilation blames a position, and if
there is an excerpt, it shows the line in which the position stands, without its terminator.  The
blanks before the caret are as many as there are bytes on the line before the position; so they are
as many as there are characters just if each of these takes one byte.  There is no excerpt only at
the end of a text whose last line is ended.  Lines and columns of longer texts do not fit into a
location. -/
theorem excerpt_shows_position {stage : Stage} {options : Options} {cause : Cause}
    (small : source.length + 1 < UInt32.size)
    (refused : (source.compile stage options).outcome = .error (.error ⟨cause, some location⟩)) :
    ∃ before front back after, source.contents.toList = before ++ (front ++ back) ++ after ∧
      IsLine before (front ++ back) after ∧
      source.Shows (byteCount (before ++ front)) location ∧
      ∀ ink,
        (source.excerpt ink location = "" ↔ front ++ back = [] ∧ after = []) ∧
        (source.excerpt ink location ≠ "" →
          source.excerpt ink location =
            excerptOf ink location.line.toNat (front ++ back) (byteCount front) ∧
          (source.excerpt ink location =
              excerptOf ink location.line.toNat (front ++ back) front.length ↔
            ∀ char ∈ front, char.utf8Size = 1)) := by
  obtain ⟨early, late, whole_eq, inside, shows⟩ := (blamable_of_compile refused).exists_position
  obtain ⟨before, front, back, after, rfl, rfl, isLine⟩ := exists_isLine early inside
  have line_eq : source.contents.toList = before ++ (front ++ back) ++ after := by
    rw [whole_eq]
    simp only [List.append_assoc]
  refine ⟨before, front, back, after, line_eq, isLine, shows, fun ink => ?_⟩
  have shown := excerpt_eq line_eq isLine small shows ink
  by_cases final : front ++ back = [] ∧ after = []
  · rw [if_pos final] at shown
    exact ⟨iff_of_true shown final, fun printed => absurd shown printed⟩
  · rw [if_neg final] at shown
    rw [shown]
    refine ⟨iff_of_false (excerptOf_ne_empty _ _ _ _) final, fun _ => ⟨rfl, ?_⟩⟩
    rw [excerptOf_inj, byteCount_eq_length_iff]

/-- A name that nothing declares. -/
def undeclaredName : Source where
  contents := "def main() \x7b\r\n  print(x);\r\n\x7d\r\n"
  origin := .memory

theorem excerpt_shows_position_undeclaredName :
    undeclaredName.length + 1 < UInt32.size ∧
    ∃ cause location, (undeclaredName.compile .run ⟨"main", false, false⟩).outcome =
        .error (.error ⟨cause, some location⟩) ∧
      undeclaredName.excerpt .plain location ≠ "" ∧
      ∃ before front back after,
        undeclaredName.contents.toList = before ++ (front ++ back) ++ after ∧
        IsLine before (front ++ back) after ∧
        undeclaredName.Shows (byteCount (before ++ front)) location ∧
        undeclaredName.excerpt .plain location =
          excerptOf .plain location.line.toNat (front ++ back) (byteCount front) := by
  have small : undeclaredName.length + 1 < UInt32.size := by decide +kernel
  have refused : (undeclaredName.compile .run ⟨"main", false, false⟩).outcome.map (fun _ => ()) =
      Outcome.failAt ⟨"<memory>", 2, 9⟩ (.undeclared "x") := by decide +kernel
  have printed : undeclaredName.excerpt .plain ⟨"<memory>", 2, 9⟩ ≠ "" := by decide +kernel
  cases outcome_eq : (undeclaredName.compile .run ⟨"main", false, false⟩).outcome with
  | ok artifact =>
      rw [outcome_eq] at refused
      cases refused
  | error failure =>
      rw [outcome_eq] at refused
      cases refused
      obtain ⟨before, front, back, after, whole_eq, isLine, shows, shown⟩ :=
        excerpt_shows_position small outcome_eq
      exact ⟨small, _, _, rfl, printed, before, front, back, after, whole_eq, isLine, shows,
        ((shown .plain).2 printed).1⟩

/-- The same text, with the statement indented by two wide blanks. -/
def wideIndentation : Source where
  contents := "def main() \x7b\n\u3000\u3000print(x);\n\x7d\n"
  origin := .memory

/-- The caret is not under the blamed position behind wide blanks: eight characters stand before the
position, and twelve blanks before the caret. -/
theorem excerpt_misses_position :
    let location : Location := ⟨"<memory>", 2, 13⟩
    let front := "\u3000\u3000print(".toList
    let back := "x);".toList
    (wideIndentation.compile .run ⟨"main", false, false⟩).outcome =
        Outcome.failAt location (.undeclared "x") ∧
      wideIndentation.contents.toList =
        "def main() \x7b\n".toList ++ (front ++ back) ++ "\n\x7d\n".toList ∧
      IsLine "def main() \x7b\n".toList (front ++ back) "\n\x7d\n".toList ∧
      wideIndentation.location? (byteCount ("def main() \x7b\n".toList ++ front)) = some location ∧
      front.length = 8 ∧
      wideIndentation.excerpt .plain location = excerptOf .plain 2 (front ++ back) 12 ∧
      wideIndentation.excerpt .plain location ≠
        excerptOf .plain 2 (front ++ back) front.length := by
  intro location front back
  have refused : (wideIndentation.compile .run ⟨"main", false, false⟩).outcome.map (fun _ => ()) =
      Outcome.failAt location (.undeclared "x") := by decide +kernel
  refine ⟨?_, rfl, ⟨by simp, by decide +kernel, .feed (by decide +kernel)⟩, by decide +kernel, rfl,
    by decide +kernel, by decide +kernel⟩
  cases outcome_eq : (wideIndentation.compile .run ⟨"main", false, false⟩).outcome with
  | ok artifact =>
      rw [outcome_eq] at refused
      cases refused
  | error failure =>
      rw [outcome_eq] at refused
      cases refused
      rfl

end Source

end TensorLang
