import TensorLang.Text.Ink

/-!
# Outlines

An outline shows a tree with one item per line, nested items indented by four blanks.
-/

namespace TensorLang

/-- A tree of labelled items. -/
inductive Outline where
  /-- A single piece of text. -/
  | leaf (text : String)
  /-- An item with a label in front. -/
  | labelled (label : String) (item : Outline)
  /-- Items between an opening and a closing text. -/
  | group (opening : String) (items : List Outline) (closing : String)

namespace Outline

/-- A named record with labelled fields. -/
def record (name : String) (fields : List Outline) : Outline :=
  .group (name ++ " " ++ braceOpen) fields braceClose

/-- A named tuple of items. -/
def tuple (name : String) (items : List Outline) : Outline :=
  .group (name ++ "(") items ")"

/-- A list of items. -/
def list : List Outline → Outline
  | [] => .leaf "[]"
  | items => .group "[" items "]"

/-- An item that may be missing. -/
def optional : Option Outline → Outline
  | none => .leaf "None"
  | some item => .tuple "Some" [item]

/-- The blanks at the start of a line. -/
def indentation (depth : Nat) : String := String.ofList (List.replicate (4 * depth) ' ')

mutual

/-- The text of an outline whose first line is already indented to `depth`. -/
def text (depth : Nat) : Outline → String
  | .leaf text => text
  | .labelled label item => label ++ ": " ++ text depth item
  | .group opening items closing =>
      opening ++ "\n" ++ itemsText (depth + 1) items ++ indentation depth ++ closing

/-- The text of items, each on lines of its own and closed by a comma. -/
def itemsText (depth : Nat) : List Outline → String
  | [] => ""
  | item :: items => indentation depth ++ text depth item ++ ",\n" ++ itemsText depth items

end

end Outline

end TensorLang
