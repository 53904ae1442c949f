import Disassembly.Insn
/-!
The collaborator of a session: what the engine needs from one instruction-set family. It decodes
at the head of the code, names things, corrects a rendered line and may fuse a record with the
one before it. Which dialect is in force is the session's business and is passed in.
-/
namespace Disassembly

structure Decoded where
  address : UInt64
  size : UInt16
  opcode : UInt32
  /-- Id of a textual alias, which wins over the opcode's own. -/
  publicId : Option UInt32 := none
  mnemonic : String
  opStr : String
  detail : Option Detail := none

namespace Decoded

def line (decoded : Decoded) : String :=
  if decoded.opStr = "" then decoded.mnemonic else decoded.mnemonic ++ "\t" ++ decoded.opStr

def render (decoded : Decoded) (provider : Provider) : String :=
  match provider.format "" decoded.line with
  | (true, text) => text
  | (false, _) => ""

end Decoded

/-- A line after correction, with the record it belongs to and the length of its mnemonic in
bytes, if that is known. -/
structure Corrected where
  insn : Insn
  text : String
  hint : Option Nat := none

theorem Corrected.grants_unchanged (insn : Insn) (text : String) :
    ({ insn, text } : Corrected).insn.grants = insn.grants := rfl

/-- What became of a record that was offered to its predecessor. -/
structure Offer where
  /-- Whether the record was folded in and must not be appended. -/
  folded : Bool
  insn : Insn
  last : Option Insn
  /-- The blocks that neither record holds any more. -/
  dropped : List Grant := []

namespace Offer

def apart (insn : Insn) (last : Option Insn) : Offer := { folded := false, insn, last }

def grants (offer : Offer) : List Grant :=
  offer.insn.grants ++ Insn.allGrants offer.last.toList ++ offer.dropped

theorem grants_apart (insn : Insn) (last : Option Insn) :
    (apart insn last).grants = insn.grants ++ Insn.allGrants last.toList := by
  simp [apart, grants]

theorem perm_apart (insn : Insn) (last : Option Insn) :
    (apart insn last).grants.Perm (insn.grants ++ Insn.allGrants last.toList) :=
  .of_eq (grants_apart insn last)

theorem isSome_apart (insn : Insn) (last : Option Insn) :
    (apart insn last).last.isSome = last.isSome := rfl

end Offer

/-- The functions of a collaborator. They may change records as they like, but a correction leaves
the blocks of its record where they are. Combining can move the blocks of two records or give them
back; it can neither make a predecessor where there is none nor make one go away. -/
structure Backend where
  /-- Decodes at the head of the code. Detail is computed only on demand. -/
  decode : Dialect → List UInt8 → UInt64 → Bool → Option Decoded
  publicId : UInt32 → UInt32 := id
  regName : Dialect → UInt32 → Option String := fun _ _ => none
  insnName : UInt32 → Option String := fun _ => none
  correct : Insn → String → Corrected := fun insn text => { insn, text }
  combine : Insn → Option Insn → Offer := .apart
  accepts : Dialect → Bool := fun _ => false
  grants_correct : ∀ insn text, (correct insn text).insn.grants = insn.grants := by
    exact Corrected.grants_unchanged
  grants_combine : ∀ insn last,
      (combine insn last).grants.Perm (insn.grants ++ Insn.allGrants last.toList) := by
    exact Offer.perm_apart
  isSome_combine : ∀ insn last, (combine insn last).last.isSome = last.isSome := by
    exact Offer.isSome_apart

structure RegisterTable where
  names : List (Option String)

namespace RegisterTable

def slots : Nat := 512

def collect (name : UInt32 → Option String) (count : Nat) : RegisterTable where
  names := (List.range count).map fun reg => name reg.toUInt32

def get? (table : RegisterTable) (reg : UInt32) : Option String :=
  (table.names[reg.toNat]?).join

def size (table : RegisterTable) : Nat := table.names.length

theorem size_collect (name : UInt32 → Option String) (count : Nat) :
    (collect name count).size = count := by
  simp [collect, size]

def nameBytes : List (Option String) → Nat
  | [] => 0
  | name :: names => (name.getD "").utf8ByteSize + nameBytes names

end RegisterTable

instance : Footprint RegisterTable where
  inlineBytes := 24
  -- a slot for each register, and the bytes of the names
  heapBytes table :=
    24 * table.names.length + RegisterTable.nameBytes table.names

structure Capabilities where
  backend : Backend
  sideTable : Option (Payload RegisterTable) := none

namespace Capabilities

/-- A collaborator with its register table, if it is to keep one. The table holds the names of the
default dialect. -/
def assemble (backend : Backend) (keepsTable : Bool) (host : Host) (provider : ProviderId) :
    Except Error Capabilities × Host :=
  if keepsTable then
    match Payload.allocate host provider
      (RegisterTable.collect (backend.regName .default) RegisterTable.slots) with
    | (.ok table, host) => (.ok { backend, sideTable := some table }, host)
    | (.error error, host) => (.error error, host)
  else (.ok { backend }, host)

def debug (capabilities : Capabilities) : String :=
  let size := match capabilities.sideTable with
    | some table => "Some(" ++ toString table.value.size ++ ")"
    | none => "None"
  "Capabilities \x7b side_table: " ++ size ++ ", .. \x7d"

end Capabilities

end Disassembly
