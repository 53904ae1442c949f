import Disassembly.Detail
import Disassembly.Insn.Field
import Disassembly.Memory.Grant
/-!
Instruction records, the engine's output. Text and raw bytes live in fields of fixed size, and a
detail payload is present only where detail was asked for.
-/
namespace Disassembly

/-- Capacities of the fields; the texts' include the zero that ends them. -/
def insnBytes : Nat := 16
def mnemonicLen : Nat := 32
def opStrLen : Nat := 96

/-- A detail payload costs a fixed part and 24 bytes for each operand that there is room for. -/
instance : Footprint Detail where
  inlineBytes := 216
  heapBytes detail := 24 * detail.capacity

structure Insn where
  id : UInt32 := 0
  address : UInt64 := 0
  size : UInt16 := 0
  bytes : Field insnBytes := .zero _
  mnemonic : Field mnemonicLen := .zero _
  opStr : Field opStrLen := .zero _
  detail : Option (Payload Detail) := none
  deriving DecidableEq

namespace Insn

def blank (address : UInt64) (size : UInt16) : Insn := { address, size }

instance : Inhabited Insn := ⟨{}⟩

def setMnemonic (insn : Insn) (text : String) : Insn := { insn with mnemonic := .ofText _ text }

def setOpStr (insn : Insn) (text : String) : Insn := { insn with opStr := .ofText _ text }

def raw (insn : Insn) : List UInt8 := insn.bytes.bytes.take insn.size.toNat

def display (insn : Insn) : String := insn.mnemonic.text ++ "\t" ++ insn.opStr.text

/-- The address after the record. The sum wraps at `2 ^ 64`, also for those who write it as a plain
one: overflow checks are taken to be off. -/
def next (insn : Insn) : UInt64 := insn.address + insn.size.toUInt64

def payload (insn : Insn) : Option Detail := insn.detail.map Payload.value

def ask (insn : Insn) (query : Detail → Except Error α) : Except Error α :=
  match insn.detail with
  | some payload => query payload.value
  | none => .error .detailUnavailable

def inGroup (insn : Insn) (group : UInt32) : Except Error Bool :=
  insn.ask fun detail => .ok (detail.inGroup group)

def readsReg (insn : Insn) (reg : UInt32) : Except Error Bool :=
  insn.ask fun detail => .ok (detail.readsReg reg)

def writesReg (insn : Insn) (reg : UInt32) : Except Error Bool :=
  insn.ask fun detail => .ok (detail.writesReg reg)

def opCount (insn : Insn) (kind : OperandKind) : Except Error Nat :=
  insn.ask fun detail => detail.opCount kind

def opIndex (insn : Insn) (kind : OperandKind) (nth : Nat) : Except Error (Option Nat) :=
  insn.ask fun detail => detail.opIndex kind nth

def grants (insn : Insn) : List Grant := (insn.detail.map Payload.grant).toList

end Insn

def Insn.allGrants (insns : List Insn) : List Grant := insns.flatMap Insn.grants

end Disassembly
