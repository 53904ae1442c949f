import Disassembly.Backend
/-!
The machine-code decoder outside the engine: what it reports about one instruction, and how each
family classifies the operands it reports.
-/
namespace Disassembly

inductive ReportedOperand where
  | reg (id : UInt32)
  | sysReg (id : UInt32)
  | imm (n : Int64)
  | cimm (n : Int64)
  | pimm (n : Int64)
  | mem (base : UInt32) (disp : Int64)
  | fp (bits : UInt64)
  | setend
  | regMrs
  | regMsr
  | pstate
  | sys
  | prefetch
  | barrier
  | crx
  /-- Any operand that no family has a kind for. -/
  | other
  deriving DecidableEq, Repr

namespace ReportedOperand

def toX86 : ReportedOperand → Operand X86Kind
  | reg id => ⟨.reg, .reg id⟩
  | imm n => ⟨.imm, .imm n⟩
  | mem base disp => ⟨.mem, .mem base disp⟩
  | _ => ⟨.invalid, .none⟩

def toArm : ReportedOperand → Operand ArmKind
  | reg id => ⟨.reg, .reg id⟩
  | imm n => ⟨.imm, .imm n⟩
  | cimm n => ⟨.cimm, .imm n⟩
  | pimm n => ⟨.pimm, .imm n⟩
  | fp bits => ⟨.fp, .fp bits⟩
  | mem base disp => ⟨.mem, .mem base disp⟩
  | setend => ⟨.setend, .none⟩
  | sysReg id => ⟨.sysReg, .reg id⟩
  | _ => ⟨.invalid, .none⟩

def toArm64 : ReportedOperand → Operand Arm64Kind
  | reg id => ⟨.reg, .reg id⟩
  | imm n => ⟨.imm, .imm n⟩
  | cimm n => ⟨.cimm, .imm n⟩
  | fp bits => ⟨.fp, .fp bits⟩
  | mem base disp => ⟨.mem, .mem base disp⟩
  | regMrs => ⟨.regMrs, .none⟩
  | regMsr => ⟨.regMsr, .none⟩
  | pstate => ⟨.pstate, .none⟩
  | sys => ⟨.sys, .none⟩
  | prefetch => ⟨.prefetch, .none⟩
  | barrier => ⟨.barrier, .none⟩
  | _ => ⟨.invalid, .none⟩

def toMips : ReportedOperand → Operand MipsKind
  | reg id => ⟨.reg, .reg id⟩
  | imm n => ⟨.imm, .imm n⟩
  | mem base disp => ⟨.mem, .mem base disp⟩
  | _ => ⟨.invalid, .none⟩

def toPpc : ReportedOperand → Operand PpcKind
  | reg id => ⟨.reg, .reg id⟩
  | imm n => ⟨.imm, .imm n⟩
  | mem base disp => ⟨.mem, .mem base disp⟩
  | crx => ⟨.crx, .none⟩
  | _ => ⟨.invalid, .none⟩

end ReportedOperand

def OperandList.ofReported (arch : Arch) (reported : List (Arch × ReportedOperand)) :
    OperandList :=
  let own := ((reported.filter fun operand => operand.1 == arch).map Prod.snd).take maxOperands
  match arch with
  | .x86 => .x86 (own.map ReportedOperand.toX86)
  | .arm => .arm (own.map ReportedOperand.toArm)
  | .arm64 => .arm64 (own.map ReportedOperand.toArm64)
  | .mips => .mips (own.map ReportedOperand.toMips)
  | .ppc => .ppc (own.map ReportedOperand.toPpc)

/-- The room in a list that was filled one by one: four places to begin with, doubled whenever they
are taken. -/
def OperandList.room (count : Nat) : Nat := if count = 0 then 0 else max 4 count.nextPowerOfTwo

structure ReportedDetail where
  regsRead : List UInt32
  regsWrite : List UInt32
  groups : List UInt32
  operands : List (Arch × ReportedOperand)
  /-- The room in the list that a family makes of the operands. How a list grows is not the engine's
  doing. -/
  room : Nat := OperandList.room operands.length

def Detail.ofFamily (family : Arch) (reported : ReportedDetail) : Detail :=
  let operands := OperandList.ofReported family reported.operands
  { Detail.ofReported reported.regsRead reported.regsWrite reported.groups operands with
    spare := reported.room - operands.length }

structure ReportedInsn where
  size : Nat
  id : UInt32
  mnemonic : String
  opStr : String
  detail : Option ReportedDetail

/-- The decoder: instructions at the head of some code, printed in a dialect, and names. -/
structure Decoder where
  decode : Dialect → List UInt8 → UInt64 → Option ReportedInsn
  regName : Dialect → UInt32 → Option String
  insnName : UInt32 → Option String

def Decoder.silent : Decoder := ⟨fun _ _ _ => none, fun _ _ => none, fun _ => none⟩

namespace Arch

def decode (arch : Arch) (decoder : Decoder) (dialect : Dialect) (code : List UInt8)
    (address : UInt64) (detail : Bool) : Option Decoded :=
  match decoder.decode dialect code address with
  | none => none
  | some insn =>
    if insn.size < UInt16.size then
      some
        { address
          size := insn.size.toUInt16
          opcode := insn.id
          mnemonic := insn.mnemonic
          opStr := insn.opStr
          detail := if detail then insn.detail.map (Detail.ofFamily arch) else none }
    else none

/-- The decoder numbers its registers with 16 bits; it is never asked about a larger id. -/
def regName (decoder : Decoder) (dialect : Dialect) (reg : UInt32) : Option String :=
  if reg.toNat < UInt16.size then decoder.regName dialect reg else none

end Arch

end Disassembly
