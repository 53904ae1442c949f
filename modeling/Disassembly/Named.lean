/-!
Things under names, in the order in which the names were first given.
-/
namespace Disassembly

structure Named (α : Type) where
  entries : List (String × α) := []

namespace Named

def empty : Named α := {}

def find? (things : Named α) (name : String) : Option α := things.entries.lookup name

def erase (things : Named α) (name : String) : Named α :=
  ⟨things.entries.filter fun entry => entry.1 != name⟩

def insert (things : Named α) (name : String) (thing : α) : Named α :=
  if (things.find? name).isSome then
    ⟨things.entries.map fun entry => if entry.1 = name then (name, thing) else entry⟩
  else ⟨things.entries ++ [(name, thing)]⟩

def values (things : Named α) : List α := things.entries.map Prod.snd

end Named

end Disassembly
