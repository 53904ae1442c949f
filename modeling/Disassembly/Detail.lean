import Disassembly.Detail.IdSet
import Disassembly.Detail.Operand
import Disassembly.Error
/-!
Detail payloads: the registers an instruction reads and writes implicitly, the groups it belongs
to and its operands, with the queries over them. A query for an operand kind of another family is
refused.
-/
namespace Disassembly

/-- Capacities of the three sets and of the operand lists that families build. -/
def maxRegsRead : Nat := 12
def maxRegsWrite : Nat := 20
def maxGroups : Nat := 8
def maxOperands : Nat := 20

structure Detail where
  regsRead : IdSet maxRegsRead
  regsWrite : IdSet maxRegsWrite
  groups : IdSet maxGroups
  operands : OperandList
  /-- How many more operands the list has room for than are in it. -/
  spare : Nat := 0
  deriving DecidableEq

namespace Detail

/-- A payload with every set cut to its capacity. The operands are kept as they are. -/
def ofReported (regsRead regsWrite groups : List UInt32) (operands : OperandList) : Detail where
  regsRead := .collect _ regsRead
  regsWrite := .collect _ regsWrite
  groups := .collect _ groups
  operands := operands

/-- What a payload is charged for is the room in its list of operands, not their number. -/
def capacity (detail : Detail) : Nat := detail.operands.length + detail.spare

theorem length_le_capacity (detail : Detail) : detail.operands.length ≤ detail.capacity :=
  Nat.le_add_right _ _

def inGroup (detail : Detail) (group : UInt32) : Bool := detail.groups.contains group

def readsReg (detail : Detail) (reg : UInt32) : Bool := detail.regsRead.contains reg

def writesReg (detail : Detail) (reg : UInt32) : Bool := detail.regsWrite.contains reg

def positions (detail : Detail) (kind : OperandKind) : List Nat :=
  (detail.operands.kinds.zipIdx.filter fun entry => entry.1 == kind).map Prod.snd

def opCount (detail : Detail) (kind : OperandKind) : Except Error Nat :=
  if kind.arch = detail.operands.arch then .ok (detail.positions kind).length
  else .error .unsupportedQuery

def opIndex (detail : Detail) (kind : OperandKind) (nth : Nat) : Except Error (Option Nat) :=
  if kind.arch = detail.operands.arch then
    .ok (if nth = 0 then none else (detail.positions kind)[nth - 1]?)
  else .error .unsupportedQuery

def same (a b : Detail) : Bool :=
  a.regsRead == b.regsRead && a.regsWrite == b.regsWrite && a.groups == b.groups &&
    a.operands.same b.operands

end Detail

end Disassembly
