import Std.Data.HashMap.Lemmas
import TensorLang.Arena

/-!
# Symbol tables

A symbol table numbers names from zero in the order in which they are first met, and finds names
by number and numbers by name.  A symbol stands for a name by its number, so that symbols are
compared without looking at their names.
-/

namespace TensorLang

/-- A name by its number in a symbol table. -/
structure Symbol where
  /-- The number of the name. -/
  number : Nat
  deriving DecidableEq

/-- Numbered names, held in both directions. -/
structure SymbolTable where
  /-- The names, each at its number. -/
  names : Array String
  /-- The number of each name. -/
  numbers : Std.HashMap String Nat

namespace SymbolTable

/-- The table without names. -/
def empty : SymbolTable := ⟨#[], ∅⟩

/-- Number of names. -/
def size (table : SymbolTable) : Nat := table.names.size

/-- The number of a name. -/
def numberOf? (table : SymbolTable) (name : String) : Option Nat := table.numbers[name]?

/-- The name with a number. -/
def name? (table : SymbolTable) (number : Nat) : Option String := table.names[number]?

/-- The number of a name, and the table that holds it.  A name without a number gets the next one;
numbers are 32-bit words and wrap round beyond. -/
def intern (table : SymbolTable) (name : String) : Nat × SymbolTable :=
  match table.numberOf? name with
  | some number => (number, table)
  | none =>
      let number := table.size % Handle.wordSize
      (number, ⟨table.names.push name, table.numbers.insert name number⟩)

/-- Gives a name the next number unless it has one. -/
def insert (table : SymbolTable) (name : String) : SymbolTable := (table.intern name).2

/-- The table that meets the names in order. -/
def ofList (names : List String) : SymbolTable := names.foldl insert empty

/-- The symbol of a name, and the table that holds the name. -/
def symbolOf (table : SymbolTable) (name : String) : Symbol × SymbolTable :=
  let (number, table) := table.intern name
  (⟨number⟩, table)

/-- The name that a symbol stands for. -/
def text? (table : SymbolTable) (symbol : Symbol) : Option String := table.name? symbol.number

end SymbolTable

end TensorLang
