import TensorLang.SymbolTable

/-!
# Numbered names

A symbol table holds the names that it has met in an array and their numbers in a map.  As long as
there are fewer names than numbers, the two are inverse to each other after every sequence of calls:
each name is numbered once, in the order in which the names were first met, and keeps its number.
So symbols are equal just if they stand for the same name.
-/

namespace TensorLang

namespace SymbolTable

variable {table more : SymbolTable} {name : String} {number : Nat}

/-! ### Calls -/

/-- What a symbol table is asked for. -/
inductive Call where
  /-- The number of a name, which is given one if it has none. -/
  | intern (name : String)
  /-- The number of a name, if it has one. -/
  | numberOf (name : String)
  /-- The name with a number, if there is one. -/
  | nameAt (number : Nat)

/-- The table after a call. -/
def perform (table : SymbolTable) : Call → SymbolTable
  | .intern name => (table.intern name).2
  | .numberOf _ => table
  | .nameAt _ => table

/-- The table after calls to a new one. -/
def after (calls : List Call) : SymbolTable := calls.foldl perform empty

/-- The name that a call interns. -/
def Call.interned? : Call → Option String
  | .intern name => some name
  | .numberOf _ => none
  | .nameAt _ => none

theorem mem_interned_iff {calls : List Call} :
    name ∈ calls.filterMap Call.interned? ↔ .intern name ∈ calls := by
  rw [List.mem_filterMap]
  constructor
  · rintro ⟨call, member, found⟩
    cases call with
    | intern other =>
        obtain rfl := Option.some.inj found
        exact member
    | numberOf | nameAt => cases found
  · exact fun member => ⟨_, member, rfl⟩

/-! ### What one call does -/

theorem intern_of_known (known : table.numberOf? name = some number) :
    table.intern name = (number, table) := by
  rw [intern, known]

theorem intern_of_unknown (unknown : table.numberOf? name = none) :
    table.intern name = (table.size % Handle.wordSize,
      ⟨table.names.push name, table.numbers.insert name (table.size % Handle.wordSize)⟩) := by
  rw [intern, unknown]

theorem numberOf?_intern (table : SymbolTable) (name : String) :
    (table.intern name).2.numberOf? name = some (table.intern name).1 := by
  cases known : table.numberOf? name with
  | some number => rw [intern_of_known known, known]
  | none =>
      rw [intern_of_unknown known]
      exact Std.HashMap.getElem?_insert_self

/-- The names of a table and their numbers are still there in another one. -/
structure Extends (table more : SymbolTable) : Prop where
  /-- Names keep their numbers. -/
  numbers : ∀ name number, table.numberOf? name = some number → more.numberOf? name = some number
  /-- Numbers keep their names. -/
  names : ∀ number name, table.name? number = some name → more.name? number = some name

namespace Extends

theorem refl (table : SymbolTable) : Extends table table :=
  ⟨fun _ _ found => found, fun _ _ found => found⟩

theorem trans {most : SymbolTable} (first : Extends table more) (second : Extends more most) :
    Extends table most where
  numbers := fun name number found => second.numbers name number (first.numbers name number found)
  names := fun number name found => second.names number name (first.names number name found)

theorem size_le (extended : Extends table more) : table.size ≤ more.size := by
  refine Nat.le_of_not_lt fun shorter => ?_
  have kept := extended.names more.size _ (Array.getElem?_eq_getElem shorter)
  exact Nat.lt_irrefl _ (Array.getElem?_eq_some_iff.mp kept).1

end Extends

private theorem extends_intern (table : SymbolTable) (name : String) :
    Extends table (table.intern name).2 := by
  cases known : table.numberOf? name with
  | some number =>
      rw [intern_of_known known]
      exact .refl table
  | none =>
      rw [intern_of_unknown known]
      constructor
      · intro other number found
        have apart : name ≠ other := by
          rintro rfl
          rw [known] at found
          cases found
        simpa [numberOf?, Std.HashMap.getElem?_insert, apart] using found
      · intro number other found
        have inside := (Array.getElem?_eq_some_iff.mp found).1
        simpa [name?, Array.getElem?_push, Nat.ne_of_lt inside] using found

private theorem extends_perform (table : SymbolTable) (call : Call) :
    Extends table (table.perform call) := by
  cases call with
  | intern name => exact extends_intern table name
  | numberOf | nameAt => exact .refl table

theorem extends_foldl (table : SymbolTable) (calls : List Call) :
    Extends table (calls.foldl perform table) := by
  induction calls generalizing table with
  | nil => exact .refl table
  | cons call calls induction => exact (extends_perform table call).trans (induction _)

theorem after_append (earlier later : List Call) :
    after (earlier ++ later) = later.foldl perform (after earlier) :=
  List.foldl_append

/-! ### What all calls keep -/

/-- The table numbers the names that were met, each once, and both of its directions agree. -/
structure Numbers (table : SymbolTable) (met : List String) : Prop where
  /-- The names stand in the order in which they were first met. -/
  names_eq : table.names.toList = met.eraseDups
  /-- A name has the number at which it stands, and no other. -/
  inverse : ∀ name number, table.numberOf? name = some number ↔ table.name? number = some name

namespace Numbers

variable {met : List String}

theorem empty : Numbers empty [] where
  names_eq := rfl
  inverse := fun name number => by simp [SymbolTable.empty, numberOf?, name?]

theorem exists_numberOf?_iff (numbers : Numbers table met) :
    (∃ number, table.numberOf? name = some number) ↔ name ∈ met := by
  simp only [numbers.inverse]
  rw [← List.mem_eraseDups, ← numbers.names_eq, Array.mem_toList_iff, Array.mem_iff_getElem?]
  rfl

theorem nodup (numbers : Numbers table met) : table.names.toList.Nodup := by
  rw [List.nodup_iff_pairwise_ne, List.pairwise_iff_getElem]
  intro first second first_lt second_lt less same
  have at_first := (numbers.inverse _ first).mpr (Array.getElem?_eq_getElem first_lt)
  have at_second := (numbers.inverse _ second).mpr (Array.getElem?_eq_getElem second_lt)
  rw [Array.getElem_toList, Array.getElem_toList] at same
  rw [same, at_second] at at_first
  exact Nat.ne_of_gt less (Option.some.inj at_first)

/-- Interning a name meets it once more. -/
theorem intern (numbers : Numbers table met) (room : table.size < Handle.wordSize) (name : String) :
    Numbers (table.intern name).2 (met ++ [name]) := by
  have known_iff : (∃ number, table.numberOf? name = some number) ↔ name ∈ met :=
    numbers.exists_numberOf?_iff
  rw [← Option.isSome_iff_exists] at known_iff
  cases known : table.numberOf? name with
  | some number =>
      rw [known] at known_iff
      rw [intern_of_known known]
      refine ⟨?_, numbers.inverse⟩
      rw [numbers.names_eq, List.eraseDups_append]
      simp [List.removeAll, known_iff.mp rfl]
  | none =>
      rw [known] at known_iff
      have fresh : name ∉ met := fun member => by simpa using known_iff.mpr member
      rw [intern_of_unknown known, Nat.mod_eq_of_lt room]
      constructor
      · rw [Array.toList_push, numbers.names_eq, List.eraseDups_append]
        simp [List.removeAll, fresh, List.eraseDups_cons]
      · intro other number
        have old := numbers.inverse other number
        simp only [numberOf?, name?, size] at old known ⊢
        rw [Std.HashMap.getElem?_insert, Array.getElem?_push]
        by_cases same : name = other
        · subst same
          rw [known] at old
          by_cases last : number = table.names.size
          · simp [last]
          · simpa [last, Ne.symm last] using old
        · by_cases last : number = table.names.size
          · subst last
            simpa [same] using old
          · simpa [same, last] using old

theorem perform (numbers : Numbers table met) (room : table.size < Handle.wordSize) (call : Call) :
    Numbers (table.perform call) (met ++ call.interned?.toList) := by
  cases call with
  | intern name => exact numbers.intern room name
  | numberOf | nameAt => simpa [SymbolTable.perform, Call.interned?] using numbers

theorem foldl (numbers : Numbers table met) {calls : List Call}
    (small : (calls.foldl SymbolTable.perform table).size < Handle.wordSize) :
    Numbers (calls.foldl SymbolTable.perform table) (met ++ calls.filterMap Call.interned?) := by
  induction calls generalizing table met with
  | nil => simpa using numbers
  | cons call calls induction =>
      have room := Nat.lt_of_le_of_lt (extends_foldl table (call :: calls)).size_le small
      have rest := induction (numbers.perform room call) small
      rw [List.filterMap_cons]
      cases met_eq : call.interned? with
      | none => simpa [met_eq] using rest
      | some name => simpa [met_eq] using rest

end Numbers

/-! ### Sequences of calls -/

/-- A symbol that the calls have made for a name. -/
def Made (calls : List Call) (symbol : Symbol) (name : String) : Prop :=
  ∃ earlier later, calls = earlier ++ .intern name :: later ∧
    symbol = ((after earlier).symbolOf name).1

/-- Each name that the calls have interned has a number of its own, once and for all. -/
structure NumberedOnce (calls : List Call) : Prop where
  /-- The names stand in the order in which they were first interned. -/
  names_eq : (after calls).names.toList = (calls.filterMap Call.interned?).eraseDups
  /-- The names differ from each other. -/
  distinct : (after calls).names.toList.Nodup
  /-- A name has a number just if it was interned. -/
  known_iff : ∀ name, (∃ number, (after calls).numberOf? name = some number) ↔ .intern name ∈ calls
  /-- A name has the number at which it stands, and no other. -/
  inverse : ∀ name number,
    (after calls).numberOf? name = some number ↔ (after calls).name? number = some name
  /-- Interning answers with the number of the name, at once and from then on. -/
  answered : ∀ earlier name later, calls = earlier ++ .intern name :: later →
    let (number, table) := (after earlier).intern name
    table.numberOf? name = some number ∧ table.name? number = some name ∧
      (after calls).numberOf? name = some number ∧ (after calls).name? number = some name
  /-- What is found at any time is found later. -/
  kept : ∀ earlier later, calls = earlier ++ later → Extends (after earlier) (after calls)
  /-- A symbol stands for the name that it was made for. -/
  text : ∀ symbol name, Made calls symbol name → (after calls).text? symbol = some name
  /-- Symbols are equal just if they were made for the same name. -/
  symbols : ∀ left right first second, Made calls left first → Made calls right second →
    (left = right ↔ first = second)

/-- What is found after some of the calls is found after all of them. -/
theorem extends_after (earlier later : List Call) :
    Extends (after earlier) (after (earlier ++ later)) := by
  rw [after_append]
  exact extends_foldl _ later

theorem numbers_after {calls : List Call} (small : (after calls).size < Handle.wordSize) :
    Numbers (after calls) (calls.filterMap Call.interned?) :=
  Numbers.empty.foldl small

/-- What interning answers is the number of the name, at once and from then on. -/
theorem answered_after {earlier later : List Call}
    (small : (after (earlier ++ .intern name :: later)).size < Handle.wordSize) :
    let (number, table) := (after earlier).intern name
    table.numberOf? name = some number ∧ table.name? number = some name ∧
      (after (earlier ++ .intern name :: later)).numberOf? name = some number ∧
      (after (earlier ++ .intern name :: later)).name? number = some name := by
  have split_eq : earlier ++ .intern name :: later = (earlier ++ [.intern name]) ++ later := by simp
  have once_eq : after (earlier ++ [.intern name]) = ((after earlier).intern name).2 :=
    after_append _ _
  have later_extends := extends_after (earlier ++ [.intern name]) later
  rw [← split_eq, once_eq] at later_extends
  have once_small : (after (earlier ++ [.intern name])).size < Handle.wordSize := by
    rw [once_eq]
    exact Nat.lt_of_le_of_lt later_extends.size_le small
  have numbers := numbers_after once_small
  rw [once_eq] at numbers
  have found := numberOf?_intern (after earlier) name
  have stands := (numbers.inverse _ _).mp found
  exact ⟨found, stands, later_extends.numbers _ _ found, later_extends.names _ _ stands⟩

/-- As long as there are fewer names than numbers, every name has a number of its own. -/
theorem numbered_once {calls : List Call} (small : (after calls).size < Handle.wordSize) :
    NumberedOnce calls := by
  have numbers := numbers_after small
  have made : ∀ symbol name, Made calls symbol name →
      (after calls).numberOf? name = some symbol.number ∧
        (after calls).name? symbol.number = some name := by
    rintro symbol name ⟨earlier, later, rfl, rfl⟩
    exact (answered_after small).2.2
  exact {
    names_eq := numbers.names_eq
    distinct := numbers.nodup
    known_iff := fun name => numbers.exists_numberOf?_iff.trans mem_interned_iff
    inverse := numbers.inverse
    answered := by
      rintro earlier name later rfl
      exact answered_after small
    kept := by
      rintro earlier later rfl
      exact extends_after earlier later
    text := fun symbol name was_made => (made symbol name was_made).2
    symbols := by
      intro left right first second left_made right_made
      constructor
      · rintro rfl
        have same := (made left first left_made).2.symm.trans (made left second right_made).2
        exact Option.some.inj same
      · rintro rfl
        have same := (made left first left_made).1.symm.trans (made right first right_made).1
        obtain ⟨number⟩ := left
        exact congrArg Symbol.mk (Option.some.inj same) }

theorem numbered_once_repeatedName :
    (after [.intern "a", .intern "b", .numberOf "c", .intern "a", .nameAt 1]).size <
        Handle.wordSize ∧
      NumberedOnce [.intern "a", .intern "b", .numberOf "c", .intern "a", .nameAt 1] := by
  have small : (after [.intern "a", .intern "b", .numberOf "c", .intern "a", .nameAt 1]).size <
      Handle.wordSize := by
    simp [after, perform, intern, numberOf?, size, empty, Handle.wordSize]
  exact ⟨small, numbered_once small⟩

end SymbolTable

end TensorLang
