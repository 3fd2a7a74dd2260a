/-!
# Arenas

An arena gives out identifiers for the entries pushed to it.  Identifiers are typed by what they
identify, so that the identifier of a buffer cannot be used to look up a value.
-/

namespace TensorLang

/-- The things that identifiers stand for. -/
inductive Entity where
  | value
  | operation
  | buffer
  | register
  | loopVariable

/-- The name of the identifiers of an entity. -/
def Entity.label : Entity → String
  | .value => "ValueId"
  | .operation => "OperationId"
  | .buffer => "BufferId"
  | .register => "RegisterId"
  | .loopVariable => "LoopVariableId"

/-- The identifier of an entity: its place in the order in which identifiers were given out. -/
structure Handle (entity : Entity) where
  /-- Place in the arena, from zero. -/
  index : Nat
  deriving DecidableEq, Inhabited

namespace Handle

/-- Identifiers are 32-bit words: there are this many of them. -/
def wordSize : Nat := 4294967296

/-- The identifier that a number denotes; numbers beyond a word wrap round. -/
def ofNumber {entity : Entity} (number : Nat) : Handle entity := ⟨number % wordSize⟩

/-- The identifier `amount` places further on. -/
def advance {entity : Entity} (id : Handle entity) (amount : Nat) : Handle entity :=
  ofNumber (id.index + amount)

/-- The identifier with the name of its kind, as messages show it. -/
def text {entity : Entity} (id : Handle entity) : String :=
  s!"{entity.label}({id.index})"

theorem ofNumber_of_lt {entity : Entity} {number : Nat} (small : number < wordSize) :
    (ofNumber number : Handle entity) = ⟨number⟩ := by
  simp [ofNumber, Nat.mod_eq_of_lt small]

end Handle

/-- Entries in the order in which they were pushed. -/
structure Arena (entity : Entity) (α : Type) where
  /-- The entries, the first pushed first. -/
  entries : Array α

namespace Arena

variable {entity : Entity} {α : Type}

/-- The arena without entries. -/
def empty : Arena entity α := ⟨#[]⟩

instance : Inhabited (Arena entity α) := ⟨empty⟩

/-- Number of entries. -/
def size (arena : Arena entity α) : Nat := arena.entries.size

/-- The identifier that the next pushed entry gets.  It is a word as long as the arena holds fewer
than `Handle.wordSize` entries; beyond, it does not wrap round. -/
def nextId (arena : Arena entity α) : Handle entity := ⟨arena.size⟩

/-- Adds an entry at the end. -/
def push (arena : Arena entity α) (entry : α) : Arena entity α := ⟨arena.entries.push entry⟩

/-- Adds several entries at the end, in order. -/
def pushAll (arena : Arena entity α) (entries : List α) : Arena entity α :=
  ⟨arena.entries ++ entries.toArray⟩

/-- The entry of an identifier. -/
def get? (arena : Arena entity α) (id : Handle entity) : Option α := arena.entries[id.index]?

/-- Changes the entry of an identifier; nothing when there is none. -/
def modify (arena : Arena entity α) (id : Handle entity) (change : α → α) : Arena entity α :=
  ⟨arena.entries.modify id.index change⟩

/-- Replaces the entry of an identifier; nothing when there is none. -/
def set (arena : Arena entity α) (id : Handle entity) (entry : α) : Arena entity α :=
  arena.modify id fun _ => entry

/-- All identifiers given out, in order. -/
def ids (arena : Arena entity α) : List (Handle entity) := (List.range arena.size).map Handle.mk

/-- The entries in order. -/
def toList (arena : Arena entity α) : List α := arena.entries.toList

@[simp]
theorem size_push (arena : Arena entity α) (entry : α) :
    (arena.push entry).size = arena.size + 1 := by
  simp [push, size]

theorem get?_push (arena : Arena entity α) (entry : α) (id : Handle entity) :
    (arena.push entry).get? id = if id = arena.nextId then some entry else arena.get? id := by
  obtain ⟨index⟩ := id
  simp only [push, get?, nextId, size, Array.getElem?_push, Handle.mk.injEq]

@[simp]
theorem size_pushAll (arena : Arena entity α) (entries : List α) :
    (arena.pushAll entries).size = arena.size + entries.length := by
  simp [pushAll, size]

theorem get?_pushAll (arena : Arena entity α) (entries : List α) (id : Handle entity) :
    (arena.pushAll entries).get? id =
      if id.index < arena.size then arena.get? id else entries[id.index - arena.size]? := by
  change (arena.entries ++ entries.toArray)[id.index]? =
    if id.index < arena.entries.size then arena.entries[id.index]?
    else entries[id.index - arena.entries.size]?
  rw [Array.getElem?_append]
  simp

theorem get?_modify (arena : Arena entity α) (id other : Handle entity) (change : α → α) :
    (arena.modify id change).get? other =
      if other = id then (arena.get? other).map change else arena.get? other := by
  obtain ⟨index⟩ := id
  obtain ⟨place⟩ := other
  simp only [modify, get?, Array.getElem?_modify, Handle.mk.injEq, eq_comm]

@[simp]
theorem size_modify (arena : Arena entity α) (id : Handle entity) (change : α → α) :
    (arena.modify id change).size = arena.size := by
  simp [modify, size]

theorem lt_size_of_get? {arena : Arena entity α} {id : Handle entity} {entry : α}
    (entry_eq : arena.get? id = some entry) : id.index < arena.size :=
  (Array.getElem?_eq_some_iff.mp entry_eq).1

theorem mem_toList_of_get? {arena : Arena entity α} {id : Handle entity} {entry : α}
    (entry_eq : arena.get? id = some entry) : entry ∈ arena.toList :=
  Array.mem_toList_iff.mpr (Array.mem_of_getElem? entry_eq)

theorem get?_eq_none_iff (arena : Arena entity α) (id : Handle entity) :
    arena.get? id = none ↔ arena.size ≤ id.index := by
  simp [get?, size]

theorem mem_ids_iff {arena : Arena entity α} {id : Handle entity} :
    id ∈ arena.ids ↔ ∃ entry, arena.get? id = some entry := by
  rw [ids, List.mem_map]
  constructor
  · intro ⟨index, index_mem, same⟩
    subst same
    exact ⟨_, Array.getElem?_eq_getElem (List.mem_range.mp index_mem)⟩
  · intro ⟨entry, entry_eq⟩
    exact ⟨id.index, List.mem_range.mpr (lt_size_of_get? entry_eq), rfl⟩

theorem nodup_ids (arena : Arena entity α) : arena.ids.Nodup := by
  rw [ids, List.nodup_iff_pairwise_ne, List.pairwise_map]
  have nodup := List.nodup_range (n := arena.size)
  exact nodup.imp fun apart equal => apart (Handle.mk.inj equal)

theorem ids_push (arena : Arena entity α) (entry : α) :
    (arena.push entry).ids = arena.ids ++ [arena.nextId] := by
  rw [ids, size_push, List.range_succ, List.map_append]
  rfl

theorem ids_of_size {arena other : Arena entity α} (same : other.size = arena.size) :
    other.ids = arena.ids := by
  rw [ids, ids, same]

theorem nextId_notMem_ids (arena : Arena entity α) : arena.nextId ∉ arena.ids := by
  intro member
  obtain ⟨entry, found⟩ := mem_ids_iff.mp member
  exact Nat.lt_irrefl _ (lt_size_of_get? found)

end Arena

end TensorLang
