import Disassembly.Insn
import Disassembly.Json.Value
/-!
What is shown of a record outside the engine: texts and numbers only, with the payload reduced to
its id sets and an operand count. Raw bytes are shown only of records that carry a payload.
-/
namespace Disassembly

def spacedHex (bytes : List UInt8) : String :=
  String.ofList ([' '].intercalate (bytes.map Numeral.hexByte))

def Insn.shownBytes (insn : Insn) : String :=
  if insn.detail.isSome then spacedHex insn.raw else ""

structure DetailSummary where
  regsRead : List UInt32
  regsWrite : List UInt32
  groups : List UInt32
  operands : UInt64
  deriving DecidableEq, Repr

structure Record where
  address : String
  id : UInt32
  size : UInt16
  mnemonic : String
  operands : String
  bytes : String
  detail : Option DetailSummary
  deriving DecidableEq, Repr

namespace DetailSummary

def ofDetail (detail : Detail) : DetailSummary where
  regsRead := detail.regsRead.ids
  regsWrite := detail.regsWrite.ids
  groups := detail.groups.ids
  operands := detail.operands.length.toUInt64

def toJson (summary : DetailSummary) : Json.Value :=
  let ids (list : List UInt32) : Json.Value := .array (list.map fun id => .number id.toNat)
  .object
    [("regs_read", ids summary.regsRead),
      ("regs_write", ids summary.regsWrite),
      ("groups", ids summary.groups),
      ("operands", .number summary.operands.toNat)]

end DetailSummary

namespace Record

def ofInsn (insn : Insn) : Record where
  address := Numeral.hex insn.address.toNat
  id := insn.id
  size := insn.size
  mnemonic := insn.mnemonic.text
  operands := insn.opStr.text
  bytes := insn.shownBytes
  detail := insn.payload.map DetailSummary.ofDetail

/-- The members of a record; one without a summary leaves that member out. -/
def toJson (record : Record) : Json.Value :=
  .object <|
    [("address", .string record.address),
      ("id", .number record.id.toNat),
      ("size", .number record.size.toNat),
      ("mnemonic", .string record.mnemonic),
      ("operands", .string record.operands),
      ("bytes", .string record.bytes)] ++
    (record.detail.map fun summary => ("detail", summary.toJson)).toList

end Record

end Disassembly
