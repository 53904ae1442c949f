import Disassembly.Family.Decoder
import Disassembly.Insn
import Disassembly.Proofs.Detail.Operands
import Mathlib.Data.List.Forall2
/-!
# Payloads of what the decoder reports

All families keep operands by one rule. An operand goes under the kind of its own name and keeps
its value where the family tells such operands apart, and is invalid and without a value elsewhere.
Of the operands reported, those of the family count, and of all lists no more than fits is kept,
always the front.
-/
namespace Disassembly

/-! ### Names of operands -/

namespace ReportedOperand

def name : ReportedOperand → String
  | reg _ => "reg"
  | sysReg _ => "sysReg"
  | imm _ => "imm"
  | cimm _ => "cimm"
  | pimm _ => "pimm"
  | mem .. => "mem"
  | fp _ => "fp"
  | setend => "setend"
  | regMrs => "regMrs"
  | regMsr => "regMsr"
  | pstate => "pstate"
  | sys => "sys"
  | prefetch => "prefetch"
  | barrier => "barrier"
  | crx => "crx"
  | other => "other"

def value : ReportedOperand → OperandValue
  | reg id | sysReg id => .reg id
  | imm n | cimm n | pimm n => .imm n
  | mem base disp => .mem base disp
  | fp bits => .fp bits
  | _ => .none

end ReportedOperand

namespace OperandKind

def name : OperandKind → String
  | x86 .invalid | arm .invalid | arm64 .invalid | mips .invalid | ppc .invalid => "invalid"
  | x86 .reg | arm .reg | arm64 .reg | mips .reg | ppc .reg => "reg"
  | x86 .imm | arm .imm | arm64 .imm | mips .imm | ppc .imm => "imm"
  | x86 .mem | arm .mem | arm64 .mem | mips .mem | ppc .mem => "mem"
  | x86 .fp | arm .fp | arm64 .fp => "fp"
  | arm .cimm | arm64 .cimm => "cimm"
  | arm .pimm => "pimm"
  | arm .setend => "setend"
  | arm .sysReg => "sysReg"
  | arm64 .regMrs => "regMrs"
  | arm64 .regMsr => "regMsr"
  | arm64 .pstate => "pstate"
  | arm64 .sys => "sys"
  | arm64 .prefetch => "prefetch"
  | arm64 .barrier => "barrier"
  | ppc .crx => "crx"

end OperandKind

/-- The operands that a family tells apart. Of x86 the decoder reports no floating-point operands,
though there is a kind for them. -/
def Arch.operandNames : Arch → List String
  | x86 | mips => ["reg", "imm", "mem"]
  | arm => ["reg", "sysReg", "imm", "cimm", "pimm", "mem", "fp", "setend"]
  | arm64 =>
    ["reg", "imm", "cimm", "mem", "fp", "regMrs", "regMsr", "pstate", "sys", "prefetch", "barrier"]
  | ppc => ["reg", "imm", "mem", "crx"]

/-- How a family keeps a reported operand. -/
inductive Keeps (arch : Arch) (reported : ReportedOperand) : OperandKind × OperandValue → Prop
  | known {kind : OperandKind} (harch : kind.arch = arch)
      (hknown : reported.name ∈ arch.operandNames) (hname : kind.name = reported.name) :
      Keeps arch reported (kind, reported.value)
  | unknown {kind : OperandKind} (harch : kind.arch = arch)
      (hunknown : reported.name ∉ arch.operandNames) (hname : kind.name = "invalid") :
      Keeps arch reported (kind, .none)

/-! ### Operands kept -/

namespace OperandList

def entries : OperandList → List (OperandKind × OperandValue)
  | x86 operands => operands.map fun operand => (.x86 operand.kind, operand.value)
  | arm operands => operands.map fun operand => (.arm operand.kind, operand.value)
  | arm64 operands => operands.map fun operand => (.arm64 operand.kind, operand.value)
  | mips operands => operands.map fun operand => (.mips operand.kind, operand.value)
  | ppc operands => operands.map fun operand => (.ppc operand.kind, operand.value)

def entryOf (reported : ReportedOperand) : Arch → OperandKind × OperandValue
  | .x86 => (.x86 reported.toX86.kind, reported.toX86.value)
  | .arm => (.arm reported.toArm.kind, reported.toArm.value)
  | .arm64 => (.arm64 reported.toArm64.kind, reported.toArm64.value)
  | .mips => (.mips reported.toMips.kind, reported.toMips.value)
  | .ppc => (.ppc reported.toPpc.kind, reported.toPpc.value)

theorem keeps_entryOf (arch : Arch) (reported : ReportedOperand) :
    Keeps arch reported (entryOf reported arch) := by
  cases arch with
  | x86 =>
    cases reported with
    | reg | imm | mem => exact .known rfl (by simp [Arch.operandNames, ReportedOperand.name]) rfl
    | _ => exact .unknown rfl (by simp [Arch.operandNames, ReportedOperand.name]) rfl
  | arm =>
    cases reported with
    | reg | sysReg | imm | cimm | pimm | mem | fp | setend =>
      exact .known rfl (by simp [Arch.operandNames, ReportedOperand.name]) rfl
    | _ => exact .unknown rfl (by simp [Arch.operandNames, ReportedOperand.name]) rfl
  | arm64 =>
    cases reported with
    | reg | imm | cimm | mem | fp | regMrs | regMsr | pstate | sys | prefetch | barrier =>
      exact .known rfl (by simp [Arch.operandNames, ReportedOperand.name]) rfl
    | _ => exact .unknown rfl (by simp [Arch.operandNames, ReportedOperand.name]) rfl
  | mips =>
    cases reported with
    | reg | imm | mem => exact .known rfl (by simp [Arch.operandNames, ReportedOperand.name]) rfl
    | _ => exact .unknown rfl (by simp [Arch.operandNames, ReportedOperand.name]) rfl
  | ppc =>
    cases reported with
    | reg | imm | mem | crx =>
      exact .known rfl (by simp [Arch.operandNames, ReportedOperand.name]) rfl
    | _ => exact .unknown rfl (by simp [Arch.operandNames, ReportedOperand.name]) rfl

def own (arch : Arch) (reported : List (Arch × ReportedOperand)) : List ReportedOperand :=
  ((reported.filter fun operand => operand.1 == arch).map Prod.snd).take 20

theorem arch_ofReported (arch : Arch) (reported : List (Arch × ReportedOperand)) :
    (ofReported arch reported).arch = arch := by
  cases arch <;> rfl

theorem entries_ofReported (arch : Arch) (reported : List (Arch × ReportedOperand)) :
    (ofReported arch reported).entries = (own arch reported).map (entryOf · arch) := by
  cases arch <;> exact List.map_map

theorem length_ofReported_le (arch : Arch) (reported : List (Arch × ReportedOperand)) :
    (ofReported arch reported).length ≤ 20 := by
  cases arch <;> simp [length, kinds, ofReported, maxOperands]

theorem forall₂_ofReported (arch : Arch) (reported : List (Arch × ReportedOperand)) :
    List.Forall₂ (Keeps arch) (own arch reported) (ofReported arch reported).entries := by
  rw [entries_ofReported, List.forall₂_map_right_iff, List.forall₂_same]
  exact fun operand _ => keeps_entryOf arch operand

end OperandList

/-! ### Payloads kept -/

theorem IdSet.contains_collect (capacity : Nat) (ids : List UInt32) (id : UInt32) :
    (collect capacity ids).contains id = decide (id ∈ ids.take capacity) := by
  rw [Bool.eq_iff_iff, mem_collect, decide_eq_true_eq]

namespace Insn

variable {insn : Insn} {detail : Detail} {family : Arch} {reported : ReportedDetail}

/-- A record with a payload that a family made of what was reported. Of each list it has the front;
its operands are of the family's kinds, and it answers queries for no other kinds. -/
structure Tells (insn : Insn) (family : Arch) (reported : ReportedDetail) : Prop where
  operands : ∃ detail, insn.payload = some detail ∧ detail.operands.arch = family ∧
    List.Forall₂ (Keeps family) (OperandList.own family reported.operands) detail.operands.entries
  inGroup : ∀ id, insn.inGroup id = .ok (decide (id ∈ reported.groups.take 8))
  readsReg : ∀ id, insn.readsReg id = .ok (decide (id ∈ reported.regsRead.take 12))
  writesReg : ∀ id, insn.writesReg id = .ok (decide (id ∈ reported.regsWrite.take 20))
  ownCount : ∀ kind : OperandKind, kind.arch = family → ∃ count ≤ 20, insn.opCount kind = .ok count
  ownIndex : ∀ kind : OperandKind, kind.arch = family → ∀ nth,
    ∃ found, insn.opIndex kind nth = .ok found
  foreignCount : ∀ kind : OperandKind, kind.arch ≠ family →
    insn.opCount kind = .error .unsupportedQuery
  foreignIndex : ∀ kind : OperandKind, kind.arch ≠ family → ∀ nth,
    insn.opIndex kind nth = .error .unsupportedQuery

theorem ask_of_payload {α : Type} (h : insn.payload = some detail)
    (query : Detail → Except Error α) : insn.ask query = query detail := by
  obtain ⟨payload, hpayload, rfl⟩ := Option.map_eq_some_iff.1 h
  rw [ask, hpayload]

theorem tells_of_payload (h : insn.payload = some (.ofFamily family reported)) :
    insn.Tells family reported := by
  have htagged : (Detail.ofFamily family reported).operands.arch = family :=
    OperandList.arch_ofReported family reported.operands
  constructor
  · exact ⟨_, h, htagged, OperandList.forall₂_ofReported family reported.operands⟩
  · intro id
    rw [inGroup, ask_of_payload h]
    exact congrArg Except.ok (IdSet.contains_collect 8 reported.groups id)
  · intro id
    rw [readsReg, ask_of_payload h]
    exact congrArg Except.ok (IdSet.contains_collect 12 reported.regsRead id)
  · intro id
    rw [writesReg, ask_of_payload h]
    exact congrArg Except.ok (IdSet.contains_collect 20 reported.regsWrite id)
  · intro kind hkind
    rw [opCount, ask_of_payload h]
    refine ⟨_, ?_, Detail.opCount_of_own (hkind.trans htagged.symm)⟩
    rw [Detail.length_positions]
    exact List.count_le_length.trans (OperandList.length_ofReported_le family reported.operands)
  · intro kind hkind nth
    rw [opIndex, ask_of_payload h]
    exact ⟨_, Detail.opIndex_of_own (hkind.trans htagged.symm) nth⟩
  · intro kind hkind
    rw [opCount, ask_of_payload h]
    exact Detail.opCount_of_foreign fun hsame => hkind (hsame.trans htagged)
  · intro kind hkind nth
    rw [opIndex, ask_of_payload h]
    exact Detail.opIndex_of_foreign (fun hsame => hkind (hsame.trans htagged)) nth

end Insn

end Disassembly
