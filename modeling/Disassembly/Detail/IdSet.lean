/-!
Small sets of ids with a fixed capacity, in the order in which the ids were reported. Ids past the
capacity are dropped; repeated ids are kept.
-/
namespace Disassembly

structure IdSet (capacity : Nat) where
  ids : List UInt32
  length_le : ids.length ≤ capacity
  deriving DecidableEq

namespace IdSet

def collect (capacity : Nat) (ids : List UInt32) : IdSet capacity where
  ids := ids.take capacity
  length_le := List.length_take_le ..

def empty : IdSet capacity := ⟨[], Nat.zero_le _⟩

def size (set : IdSet capacity) : Nat := set.ids.length

def isEmpty (set : IdSet capacity) : Bool := set.ids.isEmpty

def contains (set : IdSet capacity) (id : UInt32) : Bool := set.ids.contains id

theorem mem_collect {capacity : Nat} {ids : List UInt32} {id : UInt32} :
    (collect capacity ids).contains id = true ↔ id ∈ ids.take capacity := by
  simp [contains, collect]

end IdSet

end Disassembly
