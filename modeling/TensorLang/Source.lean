/-!
# Source texts and positions

A position is a byte offset into the UTF-8 form of a text.  It is shown to people as a line and a
column, both counted from one, the column in bytes.  A position inside a character has neither.
-/

namespace TensorLang

/-- A range of bytes, from `start` up to but not including `stop`. -/
structure Span where
  /-- Offset of the first byte. -/
  start : Nat
  /-- Offset just past the last byte. -/
  stop : Nat
  deriving DecidableEq, Inhabited

/-- The range from the start of one span to the end of another. -/
def Span.to (first last : Span) : Span := ⟨first.start, last.stop⟩

/-- Where a source text comes from. -/
inductive Origin where
  /-- The text was handed over directly. -/
  | memory
  /-- The text was read from a file. -/
  | file (path : String)
  deriving DecidableEq

/-- The name that locations give to the origin. -/
def Origin.name : Origin → String
  | .memory => "<memory>"
  | .file path => path

/-- A source text together with its origin. -/
structure Source where
  /-- The whole text. -/
  contents : String
  /-- Where the text comes from. -/
  origin : Origin

/-- A place in a source text, as diagnostics show it. -/
structure Location where
  /-- Name of the origin. -/
  file : String
  /-- Line, from one. -/
  line : UInt32
  /-- Column in bytes, from one. -/
  column : UInt32
  deriving DecidableEq

/-- The location of a line and a column, of which it keeps the low 32 bits. -/
def Location.ofPlace (file : String) (place : Nat × Nat) : Location :=
  ⟨file, .ofNat place.1, .ofNat place.2⟩

/-- The location as `file:line:column`. -/
def Location.text (location : Location) : String :=
  location.file ++ ":" ++ toString location.line.toNat ++ ":" ++ toString location.column.toNat

/-- Number of bytes that characters take in UTF-8. -/
def byteCount (chars : List Char) : Nat :=
  chars.foldr (fun char total => char.utf8Size + total) 0

/-- Splits characters after `offset` bytes; there is no split inside a character or past the end. -/
def splitAtByte? : Nat → List Char → Option (List Char × List Char)
  | 0, chars => some ([], chars)
  | _ + 1, [] => none
  | offset + 1, char :: chars =>
      if char.utf8Size ≤ offset + 1 then
        (splitAtByte? (offset + 1 - char.utf8Size) chars).map fun (before, after) =>
          (char :: before, after)
      else
        none

@[simp]
theorem byteCount_nil : byteCount [] = 0 := rfl

@[simp]
theorem byteCount_cons (char : Char) (chars : List Char) :
    byteCount (char :: chars) = char.utf8Size + byteCount chars := rfl

theorem byteCount_append (before after : List Char) :
    byteCount (before ++ after) = byteCount before + byteCount after := by
  induction before with
  | nil => simp
  | cons char before induction => simp [induction, Nat.add_assoc]

/-- The two parts make up the text, and the first has the asked number of bytes. -/
theorem splitAtByte?_eq_some {offset : Nat} {chars before after : List Char}
    (split_eq : splitAtByte? offset chars = some (before, after)) :
    chars = before ++ after ∧ byteCount before = offset := by
  induction chars generalizing offset before with
  | nil =>
      cases offset with
      | zero => simp_all [splitAtByte?]
      | succ offset => simp [splitAtByte?] at split_eq
  | cons char chars induction =>
      cases offset with
      | zero => simp_all [splitAtByte?]
      | succ offset =>
          rw [splitAtByte?] at split_eq
          split at split_eq
          case isTrue fits =>
            obtain ⟨⟨tail, rest⟩, tail_eq, parts_eq⟩ := Option.map_eq_some_iff.mp split_eq
            obtain ⟨rfl, rfl⟩ := Prod.mk.inj parts_eq
            obtain ⟨chars_eq, count_eq⟩ := induction tail_eq
            exact ⟨by rw [chars_eq, List.cons_append], by rw [byteCount_cons]; omega⟩
          case isFalse => cases split_eq

/-- A text splits after each of its beginnings. -/
theorem splitAtByte?_byteCount (before after : List Char) :
    splitAtByte? (byteCount before) (before ++ after) = some (before, after) := by
  induction before with
  | nil => simp [splitAtByte?]
  | cons char before induction =>
      have positive : 0 < char.utf8Size := Char.utf8Size_pos char
      obtain ⟨count, count_eq⟩ : ∃ count, byteCount (char :: before) = count + 1 :=
        ⟨byteCount (char :: before) - 1, by rw [byteCount_cons]; omega⟩
      rw [byteCount_cons] at count_eq
      rw [byteCount_cons, count_eq, List.cons_append, splitAtByte?,
        if_pos (by omega), ← count_eq, Nat.add_sub_cancel_left, induction, Option.map_some]

namespace Source

/-- The text in bytes, counted. -/
def length (source : Source) : Nat := byteCount source.contents.toList

/-- Line and column of a position.  Positions past the end stand for the end of the text, and a
position inside a character has no line and column. -/
def lineColumn? (source : Source) (position : Nat) : Option (Nat × Nat) :=
  (splitAtByte? (min position source.length) source.contents.toList).map fun (before, _) =>
    (before.count '\n' + 1, byteCount (before.reverse.takeWhile (· ≠ '\n')) + 1)

/-- The location of a position, which must not lie inside a character. -/
def location? (source : Source) (position : Nat) : Option Location :=
  (source.lineColumn? position).map (Location.ofPlace source.origin.name)

/-- The text that a span covers, if the span lies in the text and cuts no character. -/
def textOf? (source : Source) (span : Span) : Option String := do
  let (_, after) ← splitAtByte? span.start source.contents.toList
  let (covered, _) ← if span.start ≤ span.stop then
    splitAtByte? (span.stop - span.start) after else none
  return String.ofList covered

end Source

/-- A line without the carriage return at its end. -/
def trimReturn (line : List Char) : List Char :=
  if line.getLast? = some '\r' then line.dropLast else line

/-- The lines of a text that continues a started line, whose characters come from the last to the
first. -/
def linesFrom (started : List Char) : List Char → List (List Char)
  | [] => if started.isEmpty then [] else [started.reverse]
  | '\n' :: rest => trimReturn started.reverse :: linesFrom [] rest
  | char :: rest => linesFrom (char :: started) rest

/-- The lines of a text without their terminators, a line feed or a carriage return and a line
feed.  A terminator at the very end starts no further line. -/
def lines (chars : List Char) : List (List Char) := linesFrom [] chars

namespace Source

/-- The text of a line, counted from one. -/
def line? (source : Source) (line : Nat) : Option String :=
  if line = 0 then none else (lines source.contents.toList)[line - 1]?.map String.ofList

end Source

end TensorLang
