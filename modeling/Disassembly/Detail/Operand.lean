import Disassembly.Arch
/-!
Operands. Each family classifies its operands by an enumeration of its own; a list of operands is
tagged with the family that produced it, and so is the kind asked for by a query.
-/
namespace Disassembly

inductive X86Kind where
  | invalid | reg | imm | mem | fp
  deriving DecidableEq, Repr

inductive ArmKind where
  | invalid | reg | cimm | pimm | imm | fp | mem | setend | sysReg
  deriving DecidableEq, Repr

inductive Arm64Kind where
  | invalid | reg | cimm | imm | fp | mem | regMrs | regMsr | pstate | sys | prefetch | barrier
  deriving DecidableEq, Repr

inductive MipsKind where
  | invalid | reg | imm | mem
  deriving DecidableEq, Repr

inductive PpcKind where
  | invalid | reg | imm | mem | crx
  deriving DecidableEq, Repr

/-- The value of an operand. Floating-point immediates are kept as the bits of a double. -/
inductive OperandValue where
  | reg (id : UInt32)
  | imm (n : Int64)
  | mem (base : UInt32) (disp : Int64)
  | fp (bits : UInt64)
  | none
  deriving DecidableEq, Repr

namespace OperandValue

def isNaN (bits : UInt64) : Bool :=
  (bits &&& 0x7ff0000000000000) == 0x7ff0000000000000 && (bits &&& 0x000fffffffffffff) != 0

/-- Whether two doubles compare as equal: no NaN equals anything, and both zeros are one. -/
def sameDouble (a b : UInt64) : Bool :=
  !isNaN a && !isNaN b &&
    (a == b || ((a &&& 0x7fffffffffffffff) == 0 && (b &&& 0x7fffffffffffffff) == 0))

def same : OperandValue → OperandValue → Bool
  | fp a, fp b => sameDouble a b
  | a, b => a == b

end OperandValue

structure Operand (κ : Type) where
  kind : κ
  value : OperandValue
  deriving DecidableEq, Repr

def Operand.same [DecidableEq κ] (a b : Operand κ) : Bool :=
  a.kind == b.kind && a.value.same b.value

inductive OperandList where
  | x86 (operands : List (Operand X86Kind))
  | arm (operands : List (Operand ArmKind))
  | arm64 (operands : List (Operand Arm64Kind))
  | mips (operands : List (Operand MipsKind))
  | ppc (operands : List (Operand PpcKind))
  deriving DecidableEq, Repr

inductive OperandKind where
  | x86 (kind : X86Kind)
  | arm (kind : ArmKind)
  | arm64 (kind : Arm64Kind)
  | mips (kind : MipsKind)
  | ppc (kind : PpcKind)
  deriving DecidableEq, Repr

def OperandKind.arch : OperandKind → Arch
  | x86 _ => .x86
  | arm _ => .arm
  | arm64 _ => .arm64
  | mips _ => .mips
  | ppc _ => .ppc

def OperandKind.all : Arch → List OperandKind
  | .x86 => [X86Kind.invalid, .reg, .imm, .mem, .fp].map x86
  | .arm => [ArmKind.invalid, .reg, .cimm, .pimm, .imm, .fp, .mem, .setend, .sysReg].map arm
  | .arm64 =>
    [Arm64Kind.invalid, .reg, .cimm, .imm, .fp, .mem, .regMrs, .regMsr, .pstate, .sys, .prefetch,
      .barrier].map arm64
  | .mips => [MipsKind.invalid, .reg, .imm, .mem].map mips
  | .ppc => [PpcKind.invalid, .reg, .imm, .mem, .crx].map ppc

namespace OperandList

def arch : OperandList → Arch
  | x86 _ => .x86
  | arm _ => .arm
  | arm64 _ => .arm64
  | mips _ => .mips
  | ppc _ => .ppc

def kinds : OperandList → List OperandKind
  | x86 operands => operands.map fun operand => .x86 operand.kind
  | arm operands => operands.map fun operand => .arm operand.kind
  | arm64 operands => operands.map fun operand => .arm64 operand.kind
  | mips operands => operands.map fun operand => .mips operand.kind
  | ppc operands => operands.map fun operand => .ppc operand.kind

def values : OperandList → List OperandValue
  | x86 operands => operands.map (·.value)
  | arm operands => operands.map (·.value)
  | arm64 operands => operands.map (·.value)
  | mips operands => operands.map (·.value)
  | ppc operands => operands.map (·.value)

def length (list : OperandList) : Nat := list.kinds.length

def same (a b : OperandList) : Bool :=
  a.arch == b.arch && a.kinds == b.kinds && a.length == b.length &&
    (a.values.zip b.values).all fun pair => pair.1.same pair.2

theorem arch_of_mem_kinds {list : OperandList} {kind : OperandKind} (h : kind ∈ list.kinds) :
    kind.arch = list.arch := by
  cases list <;> simp only [kinds, List.mem_map] at h <;> obtain ⟨_, _, rfl⟩ := h <;> rfl

end OperandList

end Disassembly
