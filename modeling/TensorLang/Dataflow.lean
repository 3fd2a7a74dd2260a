import Std.Data.TreeMap.Lemmas
import TensorLang.Arena
import TensorLang.Error
import TensorLang.Tensor.Literal
import TensorLang.Tensor.Type

/-!
# Dataflow functions

A dataflow function lists tensor operations in the order in which they run.  Each operation reads
values and defines new ones; values and operations live in arenas and refer to each other by
handles.  For every value the function keeps the list of operations that use it, with repetitions:
an operation that reads a value twice stands twice in its list.
-/

namespace TensorLang

namespace Dataflow

/-- The handle of a value. -/
abbrev ValueId : Type := Handle .value

/-- The handle of an operation. -/
abbrev OperationId : Type := Handle .operation

/-- What defines a value. -/
inductive Definition where
  /-- The value is an argument of the function. -/
  | argument (position : Nat)
  /-- The value is a result of an operation. -/
  | result (operation : OperationId) (position : Nat)
  deriving DecidableEq

/-- A tensor value. -/
structure Value where
  /-- The type, as far as it is known. -/
  type : TensorType
  /-- What defines the value. -/
  definition : Definition
  deriving DecidableEq

/-- What an operation computes. -/
inductive OperationKind where
  /-- A fixed tensor. -/
  | constant (literal : TensorLiteral)
  /-- The sum of two tensors, element by element. -/
  | add
  /-- The product of two tensors, element by element. -/
  | multiply
  /-- The matrix product. -/
  | matmul
  /-- The tensor with its dimensions in opposite order. -/
  | transpose
  /-- The elements in row-major order, laid out in another shape. -/
  | reshape (shape : Shape)
  /-- A call of a function, whose shapes depend on the call. -/
  | call (callee : String)
  /-- The end of the function, with the values it returns. -/
  | leave
  /-- The same tensor at the type of a parameter. -/
  | cast
  /-- Output of a tensor. -/
  | print

namespace OperationKind

/-- The name of a kind in listings and messages. -/
def name : OperationKind → String
  | constant _ => "constant"
  | add => "add"
  | multiply => "multiply"
  | matmul => "matmul"
  | transpose => "transpose"
  | reshape _ => "reshape"
  | call _ => "generic_call"
  | leave => "return"
  | cast => "cast"
  | print => "print"

/-- Whether an operation does more than define its results. -/
def hasEffects : OperationKind → Bool
  | print | leave | call _ => true
  | constant _ | add | multiply | matmul | transpose | reshape _ | cast => false

/-- Whether the kind ends a function. -/
def isLeave : OperationKind → Bool
  | leave => true
  | _ => false

/-- Whether the kind is a cast. -/
def isCast : OperationKind → Bool
  | cast => true
  | _ => false

/-- The target of a reshape. -/
def reshapeTarget? : OperationKind → Option Shape
  | reshape shape => some shape
  | _ => none

/-- The tensor of a constant. -/
def literal? : OperationKind → Option TensorLiteral
  | constant literal => some literal
  | _ => none

/-- The function that a call names. -/
def callee? : OperationKind → Option String
  | call callee => some callee
  | _ => none

/-- Whether two kinds are the same, with the same payload; literals agree as numbers do. -/
def agrees : OperationKind → OperationKind → Bool
  | constant left, constant right => left.agrees right
  | reshape left, reshape right => left == right
  | call left, call right => left == right
  | add, add => true
  | multiply, multiply => true
  | matmul, matmul => true
  | transpose, transpose => true
  | leave, leave => true
  | cast, cast => true
  | print, print => true
  | _, _ => false

end OperationKind

/-- An operation of a function. -/
structure Operation where
  /-- The handle of the operation itself. -/
  id : OperationId
  /-- What the operation computes. -/
  kind : OperationKind
  /-- The values that the operation reads. -/
  operands : List ValueId
  /-- The values that the operation defines. -/
  results : List ValueId
  /-- The construct that the operation stems from. -/
  location : Location

namespace Operation

/-- The name of the operation's kind. -/
def name (operation : Operation) : String := operation.kind.name

/-- The result of an operation that has exactly one. -/
def result (operation : Operation) : Outcome ValueId :=
  match operation.results with
  | [result] => .ok result
  | _ => .error .fault

/-- The operand of an operation that has exactly one. -/
def onlyOperand? (operation : Operation) : Option ValueId :=
  match operation.operands with
  | [operand] => some operand
  | _ => none

/-- The operand at a position, which must exist. -/
def operand (operation : Operation) (position : Nat) : Outcome ValueId :=
  .promised operation.operands[position]?

end Operation

/-- The operations that use each value, in the order in which the lists have grown. -/
structure UseLists where
  /-- The lists by index of the value; a value without uses may have no entry. -/
  lists : Std.TreeMap Nat (List OperationId)

namespace UseLists

/-- No uses at all. -/
def empty : UseLists := ⟨∅⟩

/-- The users of a value. -/
def of (uses : UseLists) (value : ValueId) : List OperationId :=
  (uses.lists[value.index]?).getD []

/-- Adds a user at the end of a value's list. -/
def add (uses : UseLists) (value : ValueId) (user : OperationId) : UseLists :=
  ⟨uses.lists.insert value.index (uses.of value ++ [user])⟩

/-- Forgets all users of a value. -/
def clear (uses : UseLists) (value : ValueId) : UseLists :=
  ⟨uses.lists.erase value.index⟩

/-- Removes the first occurrence of a user; the last entry of the list takes its place. -/
def removeSwap (user : OperationId) (users : List OperationId) : List OperationId :=
  match users.idxOf? user, users.getLast? with
  | some position, some last => (users.set position last).dropLast
  | _, _ => users

/-- Removes one use of a value by a user. -/
def remove (uses : UseLists) (value : ValueId) (user : OperationId) : UseLists :=
  ⟨uses.lists.insert value.index (removeSwap user (uses.of value))⟩

/-- The values that may have users. -/
def values (uses : UseLists) : List ValueId := uses.lists.keys.map Handle.mk

/-- Whether every value has the same users in both, in whatever order. -/
def agrees (left right : UseLists) : Bool :=
  (left.values ++ right.values).all fun value => (left.of value).isPerm (right.of value)

theorem of_add (uses : UseLists) (value other : ValueId) (user : OperationId) :
    (uses.add value user).of other =
      if other = value then uses.of value ++ [user] else uses.of other := by
  obtain ⟨index⟩ := value
  obtain ⟨place⟩ := other
  simp only [add, of, Std.TreeMap.getElem?_insert, Nat.compare_eq_eq, Handle.mk.injEq]
  by_cases same : index = place
  · simp [same]
  · simp [same, Ne.symm same]

theorem of_clear (uses : UseLists) (value other : ValueId) :
    (uses.clear value).of other = if other = value then [] else uses.of other := by
  obtain ⟨index⟩ := value
  obtain ⟨place⟩ := other
  simp only [clear, of, Std.TreeMap.getElem?_erase, Nat.compare_eq_eq, Handle.mk.injEq]
  by_cases same : index = place
  · simp [same]
  · simp [same, Ne.symm same]

theorem of_remove (uses : UseLists) (value other : ValueId) (user : OperationId) :
    (uses.remove value user).of other =
      if other = value then removeSwap user (uses.of value) else uses.of other := by
  obtain ⟨index⟩ := value
  obtain ⟨place⟩ := other
  simp only [remove, of, Std.TreeMap.getElem?_insert, Nat.compare_eq_eq, Handle.mk.injEq]
  by_cases same : index = place
  · simp [same]
  · simp [same, Ne.symm same]

end UseLists

/-- Values and operations fit together: a value that an operation defines stands among its results,
unless the operation was erased. -/
def Coherent (values : Arena .value Value) (operations : Arena .operation (Option Operation)) :
    Prop :=
  ∀ id value operation position,
    values.get? id = some value → value.definition = .result operation position →
    ∃ entry, operations.get? operation = some entry ∧
      ∀ found, entry = some found → found.results[position]? = some id

namespace Coherent

variable {values : Arena .value Value} {operations : Arena .operation (Option Operation)}

theorem empty (operations : Arena .operation (Option Operation)) : Coherent .empty operations := by
  intro id value operation position found
  simp [Arena.empty, Arena.get?] at found

/-- An argument is no result. -/
theorem pushArgument (coherent : Coherent values operations) (type : TensorType)
    (position : Nat) : Coherent (values.push ⟨type, .argument position⟩) operations := by
  intro id value operation place found defined
  rw [Arena.get?_push] at found
  split at found
  · cases found
    cases defined
  · exact coherent id value operation place found defined

/-- Types say nothing about definitions. -/
theorem modifyType (coherent : Coherent values operations) (changed : ValueId)
    (type : TensorType) :
    Coherent (values.modify changed fun value => { value with type }) operations := by
  intro id value operation position found defined
  rw [Arena.get?_modify] at found
  split at found
  · obtain ⟨before, before_eq, rfl⟩ := Option.map_eq_some_iff.mp found
    exact coherent id before operation position before_eq defined
  · exact coherent id value operation position found defined

/-- A new operation defines the new values in order. -/
theorem pushOperation (coherent : Coherent values operations) (types : List TensorType)
    (new : Operation)
    (results_eq : new.results = (List.range' values.size types.length).map Handle.mk) :
    Coherent
      (values.pushAll (types.zipIdx.map fun (type, position) =>
        ⟨type, .result operations.nextId position⟩))
      (operations.push (some new)) := by
  intro id value operation position found defined
  rw [Arena.get?_pushAll] at found
  rw [Arena.get?_push]
  split at found
  · obtain ⟨entry, entry_eq, rest⟩ := coherent id value operation position found defined
    have old : operation ≠ operations.nextId := by
      rintro rfl
      exact absurd (Arena.lt_size_of_get? entry_eq) (Nat.lt_irrefl _)
    exact ⟨entry, by rw [if_neg old, entry_eq], rest⟩
  · rename_i later
    simp only [List.getElem?_map, List.getElem?_zipIdx, Option.map_map,
      Option.map_eq_some_iff] at found
    obtain ⟨type, type_eq, rfl⟩ := found
    simp only [Function.comp_apply, Definition.result.injEq] at defined
    obtain ⟨rfl, rfl⟩ := defined
    refine ⟨some new, by rw [if_pos rfl], ?_⟩
    rintro _ ⟨⟩
    have inside : id.index - values.size < types.length :=
      (List.getElem?_eq_some_iff.mp type_eq).1
    obtain ⟨index⟩ := id
    simp only [Nat.not_lt] at later inside
    rw [results_eq, List.getElem?_map, Nat.zero_add, List.getElem?_range' inside]
    simp only [Option.map_some, Option.some.injEq, Handle.mk.injEq]
    omega

/-- An operation may change, or be erased, but not its results. -/
theorem setOperation (coherent : Coherent values operations) (changed : OperationId)
    (entry : Option Operation)
    (keeps : ∀ after, entry = some after →
      ∀ before, operations.get? changed = some (some before) → after.results = before.results)
    (there : ∀ after, entry = some after → operations.get? changed ≠ some none) :
    Coherent values (operations.set changed entry) := by
  intro id value operation position found defined
  obtain ⟨before, before_eq, rest⟩ := coherent id value operation position found defined
  rw [Arena.set, Arena.get?_modify]
  split
  · rename_i same
    subst same
    refine ⟨entry, by rw [before_eq]; rfl, ?_⟩
    intro after after_eq
    cases before with
    | none => exact absurd before_eq (there after after_eq)
    | some old =>
        rw [keeps after after_eq old before_eq]
        exact rest old rfl
  · exact ⟨before, before_eq, rest⟩

end Coherent

/-- A function as a list of tensor operations. -/
structure Function where
  /-- The function's name. -/
  name : String
  /-- Where the function is defined. -/
  location : Location
  /-- The values that callers pass. -/
  arguments : List ValueId
  /-- The types of the returned values. -/
  resultTypes : List TensorType
  /-- All values ever made. -/
  values : Arena .value Value
  /-- All operations ever made; an erased one leaves a gap. -/
  operations : Arena .operation (Option Operation)
  /-- The operations in the order in which they run. -/
  body : List OperationId
  /-- The users of each value. -/
  uses : UseLists
  /-- Values and operations fit together. -/
  coherent : Coherent values operations

namespace Function

/-- The function without arguments and operations. -/
def new (name : String) (location : Location) : Function :=
  { name, location, arguments := [], resultTypes := [], values := .empty, operations := .empty
    body := [], uses := .empty, coherent := .empty _ }

/-- The value of a handle. -/
def value (function : Function) (id : ValueId) : Outcome Value :=
  .promised (function.values.get? id)

/-- The type of a value. -/
def typeOf (function : Function) (id : ValueId) : Outcome TensorType :=
  return (← function.value id).type

/-- The operation of a handle, unless it was erased. -/
def operation? (function : Function) (id : OperationId) : Option Operation :=
  (function.operations.get? id).join

/-- The operation of a handle, which must not have been erased. -/
def operation (function : Function) (id : OperationId) : Outcome Operation :=
  .promised (function.operation? id)

/-- The operation that defines a value, unless the value is an argument or the operation was
erased. -/
def definer? (function : Function) (id : ValueId) : Outcome (Option Operation) := do
  match (← function.value id).definition with
  | .argument _ => return none
  | .result operation _ => return function.operation? operation

/-- The operations in the order in which they run. -/
def bodyOperations (function : Function) : Outcome (List Operation) :=
  function.body.mapM function.operation

/-- The operation that ends the body, if it returns from the function. -/
def leaveOperation? (function : Function) : Outcome (Option Operation) := do
  match function.body.getLast? with
  | none => return none
  | some id =>
      let operation ← function.operation id
      return if operation.kind.isLeave then some operation else none

/-- The users of a value. -/
def usersOf (function : Function) (value : ValueId) : List OperationId := function.uses.of value

/-- Whether a value has users. -/
def isUsed (function : Function) (value : ValueId) : Bool := !(function.usersOf value).isEmpty

end Function

/-- The functions of a program, each with a name of its own. -/
structure Module where
  /-- The functions. -/
  functions : List Function

namespace Module

/-- The module without functions. -/
def empty : Module := ⟨[]⟩

/-- The function with a name. -/
def function? (module : Module) (name : String) : Option Function :=
  module.functions.find? fun function => function.name == name

/-- Adds a function at the end, unless its name is taken. -/
def add (module : Module) (function : Function) : Outcome Module :=
  match module.function? function.name with
  | some _ => Outcome.failAt function.location (.redefinition function.name)
  | none => .ok ⟨module.functions ++ [function]⟩

end Module

end Dataflow

end TensorLang
