import Disassembly.Family.Decoder
/-!
Recorded answers of the decoder, for where it cannot be asked: the instructions found in one
piece of code, by their offset from its start, and the names that were looked up.
-/
namespace Disassembly

structure Listing where
  base : UInt64
  entries : List (Nat × ReportedInsn)

namespace Listing

def find? (listing : Listing) (address : UInt64) : Option ReportedInsn :=
  (listing.entries.find? fun entry => listing.base + entry.1.toUInt64 == address).map Prod.snd

end Listing

/-- Recorded names. Those of the default dialect are complete for the register table of a family
that keeps one. -/
structure RecordedNames where
  table : Option (List (UInt32 × String)) := none
  regs : List (UInt32 × String) := []
  insns : List (UInt32 × String) := []

namespace RecordedNames

def regName (names : RecordedNames) (dialect : Dialect) (reg : UInt32) : Option String :=
  match names.table with
  | some table =>
    if dialect = .default ∧ reg.toNat < RegisterTable.slots then table.lookup reg
    else names.regs.lookup reg
  | none => names.regs.lookup reg

end RecordedNames

def Decoder.recorded (names : RecordedNames) (listing : Option Listing) : Decoder where
  decode _ _ address := listing.bind (·.find? address)
  regName := names.regName
  insnName id := names.insns.lookup id

end Disassembly
