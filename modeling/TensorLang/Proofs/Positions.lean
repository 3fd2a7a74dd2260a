import Mathlib.Data.Prod.Lex
import TensorLang.Proofs.Program.Places
import TensorLang.Source.PlaceTable

/-!
# Lines and columns identify positions

Every character moves the place on, to a later column or to a later line.  So a position between two
characters can be told from its line and column: the line gives the position just after a line feed,
and the column what is to be added.
-/

namespace TensorLang

/-- The offset just after so many line feeds; there is none if the text has fewer. -/
def afterFeeds? : Nat → List Char → Option Nat
  | 0, _ => some 0
  | _ + 1, [] => none
  | feeds + 1, char :: chars =>
      (afterFeeds? (if char = '\n' then feeds else feeds + 1) chars).map (char.utf8Size + ·)

/-- The offset at which a line starts, lines counted from one. -/
def Source.lineStart? (source : Source) (line : Nat) : Option Nat :=
  if line = 0 then none else afterFeeds? (line - 1) source.contents.toList

private theorem afterFeeds?_feed (front back : List Char) :
    afterFeeds? (front.count '\n' + 1) (front ++ '\n' :: back) = some (byteCount front + 1) := by
  induction front with
  | nil =>
      rw [List.count_nil, List.nil_append, afterFeeds?, if_pos rfl, afterFeeds?]
      rfl
  | cons char front induction =>
      rw [List.cons_append, afterFeeds?, byteCount_cons, List.count_cons]
      by_cases feed : char = '\n'
      · rw [if_pos feed, if_pos (beq_iff_eq.mpr feed), induction, Option.map_some, Nat.add_assoc]
      · rw [if_neg feed, if_neg (mt beq_iff_eq.mp feed), Nat.add_zero, induction, Option.map_some,
          Nat.add_assoc]

/-! ### Places in order -/

theorem lt_placeAfter (place : Nat × Nat) (char : Char) :
    toLex place < toLex (placeAfter place char) := by
  rw [Prod.Lex.toLex_lt_toLex, placeAfter]
  split
  · exact .inl (Nat.lt_succ_self _)
  · exact .inr ⟨rfl, Nat.lt_add_of_pos_right (Char.utf8Size_pos char)⟩

theorem lt_foldl_placeAfter (place : Nat × Nat) {chars : List Char} (nonempty : chars ≠ []) :
    toLex place < toLex (chars.foldl placeAfter place) := by
  induction chars generalizing place with
  | nil => exact absurd rfl nonempty
  | cons char chars induction =>
      rw [List.foldl_cons]
      cases chars with
      | nil => exact lt_placeAfter place char
      | cons next chars =>
          exact (lt_placeAfter place char).trans (induction _ (List.cons_ne_nil _ _))

/-- The line counts the line feeds, and the columns start anew after the last of them. -/
theorem foldl_placeAfter_append (before after : List Char) :
    let place := before.foldl placeAfter (1, 1)
    place.1 = before.count '\n' + 1 ∧ 1 ≤ place.2 ∧
      ∃ start, afterFeeds? (before.count '\n') (before ++ after) = some start ∧
        byteCount before = start + (place.2 - 1) := by
  induction before using List.reverseRecOn generalizing after with
  | nil => exact ⟨rfl, le_rfl, 0, by rw [List.count_nil, afterFeeds?], rfl⟩
  | append_singleton before char induction =>
      obtain ⟨line_eq, positive, start, start_eq, offset_eq⟩ := induction (char :: after)
      rw [List.foldl_append, List.foldl_cons, List.foldl_nil, List.count_append,
        List.append_assoc, byteCount_append, byteCount_cons, byteCount_nil, List.cons_append,
        List.nil_append, placeAfter]
      by_cases feed : char = '\n'
      · subst feed
        rw [if_pos rfl]
        refine ⟨congrArg Nat.succ line_eq, le_rfl, _, afterFeeds?_feed before after, rfl⟩
      · rw [if_neg feed, List.count_singleton, if_neg (mt beq_iff_eq.mp feed)]
        dsimp only
        exact ⟨line_eq, by omega, start, start_eq, by omega⟩

namespace Source

variable {source : Source}

/-- The place of a position is reached by moving over the characters before it. -/
theorem lineColumn?_eq_foldl {before after : List Char}
    (whole_eq : source.contents.toList = before ++ after) :
    source.lineColumn? (byteCount before) = some (before.foldl placeAfter (1, 1)) := by
  have inside : byteCount before ≤ source.length := by
    rw [length, whole_eq, byteCount_append]
    exact Nat.le_add_right _ _
  have folded := foldr_placeAfter (1, 1) before.reverse
  rw [List.foldr_reverse, List.count_reverse] at folded
  rw [lineColumn?, Nat.min_eq_left inside, whole_eq, splitAtByte?_byteCount,
    Option.map_some, folded]
  simp [Nat.add_comm]

private theorem byteCount_blanks (count : Nat) : byteCount (List.replicate count ' ') = count := by
  induction count with
  | zero => rfl
  | succ count induction =>
      rw [List.replicate_succ, byteCount_cons, induction]
      exact Nat.add_comm _ _

private theorem foldl_placeAfter_blanks (count column : Nat) :
    (List.replicate count ' ').foldl placeAfter (1, column) = (1, column + count) := by
  induction count generalizing column with
  | zero => rfl
  | succ count induction =>
      rw [List.replicate_succ, List.foldl_cons, placeAfter, if_neg (by decide), induction,
        Nat.add_assoc, Nat.add_comm count 1]
      rfl

/-- The column behind blanks is their number, counted from one in words: it is 0 behind 2 ^ 32 - 1
blanks. -/
theorem shows_behind_blanks (count : Nat) :
    Shows ⟨String.ofList (List.replicate count ' '), .memory⟩ count
      ⟨"<memory>", 1, .ofNat (count + 1)⟩ := by
  let source : Source := ⟨String.ofList (List.replicate count ' '), .memory⟩
  have whole_eq : source.contents.toList = List.replicate count ' ' ++ [] :=
    String.toList_ofList.trans (List.append_nil _).symm
  have place_eq := lineColumn?_eq_foldl whole_eq
  rw [byteCount_blanks, foldl_placeAfter_blanks] at place_eq
  rw [shows_iff, location?, place_eq, Option.map_some, Nat.add_comm]
  rfl

/-- Of two positions between characters, the later one has characters in front of it that the
earlier one has not. -/
theorem exists_middle {first second : Nat} (earlier : first < second)
    (first_splits : Splits source.contents.toList first)
    (second_splits : Splits source.contents.toList second) :
    ∃ before middle after, source.contents.toList = before ++ (middle ++ after) ∧ middle ≠ [] ∧
      byteCount before = first ∧ byteCount (before ++ middle) = second := by
  obtain ⟨before, rest, whole_eq, rfl⟩ := first_splits
  obtain ⟨longer, after, again_eq, rfl⟩ := second_splits
  rcases List.append_eq_append_iff.mp (whole_eq.symm.trans again_eq) with
    ⟨middle, rfl, rfl⟩ | ⟨middle, rfl, rfl⟩
  · refine ⟨before, middle, after, whole_eq, ?_, rfl, rfl⟩
    rintro rfl
    rw [List.append_nil] at earlier
    exact absurd earlier (Nat.lt_irrefl _)
  · rw [byteCount_append] at earlier
    omega

/-- Lines and columns identify positions.  A later position between characters has a later line, or
a later column on the same line; lines and columns count from one; the position is so many bytes
behind the start of its line; and positions past the end stand for the end. -/
theorem places_identify_positions (source : Source) :
    (∀ first second, first < second → second ≤ source.length →
      Splits source.contents.toList first → Splits source.contents.toList second →
      ∃ place another, source.lineColumn? first = some place ∧
        source.lineColumn? second = some another ∧ toLex place < toLex another) ∧
    (∀ position, position ≤ source.length → Splits source.contents.toList position →
      ∃ line column start, source.lineColumn? position = some (line, column) ∧
        1 ≤ line ∧ 1 ≤ column ∧ source.lineStart? line = some start ∧
        position = start + (column - 1)) ∧
    ∀ position, source.length ≤ position →
      source.lineColumn? position = source.lineColumn? source.length := by
  refine ⟨?_, ?_, ?_⟩
  · intro first second earlier _ first_splits second_splits
    obtain ⟨before, middle, after, whole_eq, nonempty, rfl, rfl⟩ :=
      exists_middle earlier first_splits second_splits
    refine ⟨_, _, lineColumn?_eq_foldl whole_eq,
      lineColumn?_eq_foldl ((List.append_assoc _ _ _).symm ▸ whole_eq), ?_⟩
    rw [List.foldl_append]
    exact lt_foldl_placeAfter _ nonempty
  · rintro _ - ⟨before, after, whole_eq, rfl⟩
    obtain ⟨line_eq, positive, start, start_eq, offset_eq⟩ :=
      foldl_placeAfter_append before after
    refine ⟨_, _, start, lineColumn?_eq_foldl whole_eq, by omega, positive, ?_, offset_eq⟩
    rw [lineStart?, line_eq, if_neg (Nat.succ_ne_zero _), Nat.add_sub_cancel, whole_eq, start_eq]
  · intro position past
    rw [lineColumn?, lineColumn?, Nat.min_eq_right past, Nat.min_self]

/-- Two lines, the first ended by a carriage return and a line feed, with a letter of two bytes. -/
def twoLines : Source where
  contents := "var\r\n# é\n"
  origin := .memory

/-- The start of the second line, and the position behind its letter of two bytes. -/
theorem places_identify_positions_twoLines :
    (5 < 9 ∧ 9 ≤ twoLines.length ∧ Splits twoLines.contents.toList 5 ∧
      Splits twoLines.contents.toList 9 ∧
      ∃ place another, twoLines.lineColumn? 5 = some place ∧
        twoLines.lineColumn? 9 = some another ∧ toLex place < toLex another) ∧
    (∃ line column start, twoLines.lineColumn? 9 = some (line, column) ∧ 1 ≤ line ∧ 1 ≤ column ∧
      twoLines.lineStart? line = some start ∧ 9 = start + (column - 1)) ∧
    twoLines.length ≤ 40 ∧ twoLines.lineColumn? 40 = twoLines.lineColumn? twoLines.length := by
  obtain ⟨ordered, counted, ended⟩ := places_identify_positions twoLines
  have start : Splits twoLines.contents.toList 5 := ⟨"var\r\n".toList, "# é\n".toList, rfl, rfl⟩
  have behind : Splits twoLines.contents.toList 9 := ⟨"var\r\n# é".toList, "\n".toList, rfl, rfl⟩
  have inside : 9 ≤ twoLines.length := by decide
  have past : twoLines.length ≤ 40 := by decide
  exact ⟨⟨by decide, inside, start, behind, ordered 5 9 (by decide) inside start behind⟩,
    counted 9 inside behind, past, ended 40 past⟩

end Source

end TensorLang
