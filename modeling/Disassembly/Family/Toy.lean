import Disassembly.Backend
/-!
A toy instruction set of three instructions, for sessions that need no outside decoder. `90` is
`nop`, `01 rr` moves into register `rr`, and `f0 0f` is a prefix that fuses with the instruction
after it. Two more bytes are decoded to a size that no cursor can follow: none at all, or more
than there is.
-/
namespace Disassembly.Toy

def idBase : UInt32 := 100

def register (reg : UInt32) : String := "r" ++ toString reg.toNat

def recognize : List UInt8 → Option (UInt16 × UInt32 × String × Option UInt32)
  | [] => none
  | first :: rest =>
    if first = 0x90 then some (1, 1, "nop", none)
    else if first = 0xf0 ∧ rest.head? = some 0x0f then some (2, 2, "pfx", none)
    else if first = 0x01 then rest.head?.map fun reg => (2, 3, "mov", some reg.toUInt32)
    else if first = 0xee then some (0, 4, "stall", none)
    else if first = 0xef then some (8, 5, "overrun", none)
    else none

def detailOf (reg : Option UInt32) : Detail :=
  .ofReported reg.toList (reg.map fun _ => 0).toList [1]
    (.x86 (reg.map fun reg => ⟨.reg, .reg reg⟩).toList)

def decode (code : List UInt8) (address : UInt64) (detail : Bool) : Option Decoded :=
  (recognize code).map fun (size, opcode, mnemonic, reg) =>
    { address, size, opcode, mnemonic
      opStr := (reg.map register).getD ""
      detail := if detail then some (detailOf reg) else none }

def insnName (id : UInt32) : Option String :=
  match id.toNat with
  | 101 => some "nop"
  | 102 => some "pfx"
  | 103 => some "mov"
  | _ => none

/-- The prefix and the record after it as one record. Bytes of the prefix that the other record
does not reach are kept. -/
def fused (last insn : Insn) : Insn :=
  { id := insn.id
    address := last.address
    size := last.size + insn.size
    bytes := .ofBytes _
      (last.raw ++ insn.raw ++ last.bytes.bytes.drop (last.size.toNat + insn.size.toNat))
    mnemonic := .ofText _ ("pfx." ++ insn.mnemonic.text)
    opStr := .ofText _ insn.opStr.text
    detail := insn.detail }

/-- Folds a record into a prefix directly before it, if there is room for both. Overflow checks are
taken to be off, so that the last address lies before the first. -/
def combine (insn : Insn) (last : Option Insn) : Offer :=
  match last with
  | none => .apart insn none
  | some last =>
    if last.mnemonic.text == "pfx" && last.next == insn.address &&
        decide (last.size.toNat + insn.size.toNat ≤ insnBytes) then
      { folded := true
        insn := { insn with detail := none }
        last := some (fused last insn)
        dropped := last.grants }
    else .apart insn (some last)

theorem grants_combine (insn : Insn) (last : Option Insn) :
    (combine insn last).grants.Perm (insn.grants ++ Insn.allGrants last.toList) := by
  unfold combine
  split
  · exact Offer.perm_apart _ _
  · split
    · simp [Offer.grants, Insn.allGrants, Insn.grants, fused]
    · exact Offer.perm_apart _ _

theorem isSome_combine (insn : Insn) (last : Option Insn) :
    (combine insn last).last.isSome = last.isSome := by
  unfold combine
  split
  · rfl
  · split <;> rfl

def backend : Backend where
  decode _ := decode
  publicId opcode := opcode + idBase
  regName _ reg := if reg < 16 then some (register reg) else none
  insnName := insnName
  combine := combine
  accepts dialect := dialect == .default
  grants_combine := grants_combine
  isSome_combine := isSome_combine

end Disassembly.Toy
