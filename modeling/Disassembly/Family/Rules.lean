import Disassembly.Family.X86
/-!
Families described by rules. A rule decodes every code that starts with its pattern; corrections
change rendered lines, and fusions fold a record into the one before it. A description stands in
for a decoder wherever the instructions that occur are known beforehand.
-/
namespace Disassembly

structure Rule where
  pattern : List UInt8
  size : UInt16
  opcode : UInt32
  publicId : Option UInt32
  mnemonic : String
  opStr : String
  detail : Option Detail
  /-- Distance of the record's address from the place where it was decoded. -/
  shift : UInt64

structure Correction where
  text : String
  newText : Option String
  newId : Option UInt32
  hint : Option Nat

structure Fusion where
  last : String
  current : String
  mnemonic : String

inductive Adjustments where
  | x86
  | listed (corrections : List Correction) (fusions : List Fusion)

structure RuleFamily where
  rules : List Rule
  idBase : UInt32
  adjustments : Adjustments
  /-- Register names in the default dialect, and in every other one. -/
  regs : List (UInt32 × String)
  otherRegs : List (UInt32 × String)
  insns : List (UInt32 × String)
  dialects : List Dialect
  keepsTable : Bool
  /-- The error with which wiring fails, if it does. -/
  failure : Option Error

namespace RuleFamily

def decode (family : RuleFamily) (code : List UInt8) (address : UInt64) (detail : Bool) :
    Option Decoded :=
  (family.rules.find? fun rule => rule.pattern.isPrefixOf code).map fun rule =>
    { address := address + rule.shift
      size := rule.size
      opcode := rule.opcode
      publicId := rule.publicId
      mnemonic := rule.mnemonic
      opStr := rule.opStr
      detail := if detail then rule.detail else none }

def correctBy (corrections : List Correction) (insn : Insn) (text : String) : Corrected :=
  match corrections.find? (·.text == text) with
  | none => { insn, text }
  | some correction =>
    { insn := { insn with id := correction.newId.getD insn.id }
      text := correction.newText.getD text
      hint := correction.hint }

/-- Folds by the first fusion for these two mnemonics. The record before grows by the size of the
folded one and keeps the rest of what it was. -/
def fuseBy (fusions : List Fusion) (insn : Insn) (last : Option Insn) : Offer :=
  match last with
  | none => .apart insn none
  | some last =>
    match fusions.find? fun fusion =>
      fusion.last == last.mnemonic.text && fusion.current == insn.mnemonic.text with
    | none => .apart insn (some last)
    | some fusion =>
      { folded := true
        insn
        last := some { last with
          size := last.size + insn.size, mnemonic := .ofText _ fusion.mnemonic } }

theorem grants_correctBy (corrections : List Correction) (insn : Insn) (text : String) :
    (correctBy corrections insn text).insn.grants = insn.grants := by
  unfold correctBy
  split <;> rfl

/-- Two records stay apart, or a fusion for their mnemonics makes one of them. -/
theorem fuseBy_cases (fusions : List Fusion) (insn : Insn) (last : Option Insn) :
    fuseBy fusions insn last = .apart insn last ∨
      ∃ old, ∃ fusion ∈ fusions, last = some old ∧
        fusion.last = old.mnemonic.text ∧ fusion.current = insn.mnemonic.text ∧
        fuseBy fusions insn last =
          { folded := true
            insn
            last := some { old with
              size := old.size + insn.size, mnemonic := .ofText _ fusion.mnemonic } } := by
  cases last with
  | none => exact .inl rfl
  | some old =>
    rw [fuseBy]
    split
    · exact .inl rfl
    · next fusion hfound =>
      have hmnemonics := List.find?_some hfound
      rw [Bool.and_eq_true, beq_iff_eq, beq_iff_eq] at hmnemonics
      exact .inr ⟨old, fusion, List.mem_of_find?_eq_some hfound, rfl, hmnemonics.1, hmnemonics.2,
        rfl⟩

theorem grants_fuseBy (fusions : List Fusion) (insn : Insn) (last : Option Insn) :
    (fuseBy fusions insn last).grants.Perm (insn.grants ++ Insn.allGrants last.toList) := by
  rcases fuseBy_cases fusions insn last with hapart | ⟨old, fusion, -, rfl, -, -, hfused⟩
  · rw [hapart]
    exact Offer.perm_apart _ _
  · rw [hfused]
    simp [Offer.grants, Insn.allGrants, Insn.grants]

theorem isSome_fuseBy (fusions : List Fusion) (insn : Insn) (last : Option Insn) :
    (fuseBy fusions insn last).last.isSome = last.isSome := by
  rcases fuseBy_cases fusions insn last with hapart | ⟨old, fusion, -, rfl, -, -, hfused⟩
  · rw [hapart]
    rfl
  · rw [hfused]
    rfl

def backend (family : RuleFamily) : Backend :=
  let plain : Backend :=
    { decode := fun _ => family.decode
      publicId := (· + family.idBase)
      regName := fun dialect reg =>
        (if dialect = .default then family.regs else family.otherRegs).lookup reg
      insnName := fun id => family.insns.lookup id
      accepts := family.dialects.contains }
  match family.adjustments with
  | .x86 => plain.likeX86
  | .listed corrections fusions =>
    { plain with
      correct := correctBy corrections
      combine := fuseBy fusions
      grants_correct := grants_correctBy corrections
      grants_combine := grants_fuseBy fusions
      isSome_combine := isSome_fuseBy fusions }

/-- Wires the family; the failure, if there is one, comes before the register table. -/
def wire (family : RuleFamily) (host : Host) (provider : ProviderId) :
    Except Error Capabilities × Host :=
  match family.failure with
  | some error => (.error error, host)
  | none => Capabilities.assemble family.backend family.keepsTable host provider

end RuleFamily

end Disassembly
