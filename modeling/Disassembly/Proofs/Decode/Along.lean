import Disassembly.CommandLine.Run
/-!
# Records along a code

Records that lie one directly behind the other each have a place: the code from there on and its
address, which is found by the bytes covered before. What is said of every record at its place can
be said piece by piece.
-/
namespace Disassembly

open CommandLine (coveredBytes)

variable {holds other : List UInt8 → UInt64 → Insn → Prop} {code : List UInt8} {address : UInt64}
  {insn : Insn} {insns rest : List Insn} {i : Nat}

@[simp] theorem coveredBytes_nil : coveredBytes [] = 0 := rfl

@[simp] theorem coveredBytes_cons :
    coveredBytes (insn :: rest) = insn.size.toNat + coveredBytes rest := rfl

@[simp] theorem coveredBytes_append :
    coveredBytes (insns ++ rest) = coveredBytes insns + coveredBytes rest := by
  induction insns with
  | nil => simp
  | cons insn insns ih => simp [ih, Nat.add_assoc]

theorem toUInt64_toNat_size (size : UInt16) : size.toNat.toUInt64 = size.toUInt64 :=
  UInt64.toNat_inj.1 (by
    have := size.toNat_lt
    simp only [Nat.toUInt64_eq, UInt64.toNat_ofNat', UInt16.toNat_toUInt64]
    omega)

theorem add_toUInt64 (address : UInt64) (m n : Nat) :
    address + (m + n).toUInt64 = address + m.toUInt64 + n.toUInt64 := by
  rw [Nat.toUInt64_eq, UInt64.ofNat_add, ← UInt64.add_assoc, ← Nat.toUInt64_eq, ← Nat.toUInt64_eq]

theorem add_covered (address : UInt64) (size : UInt16) (n : Nat) :
    address + (size.toNat + n).toUInt64 = address + size.toUInt64 + n.toUInt64 := by
  rw [add_toUInt64, toUInt64_toNat_size]

theorem add_covered_concat (address : UInt64) (insns : List Insn) (insn : Insn) :
    address + (coveredBytes (insns ++ [insn])).toUInt64 =
      address + (coveredBytes insns).toUInt64 + insn.size.toUInt64 := by
  rw [coveredBytes_append, coveredBytes_cons, coveredBytes_nil, Nat.add_zero, add_toUInt64,
    toUInt64_toNat_size]

theorem drop_covered_concat (code : List UInt8) (insns : List Insn) (insn : Insn) :
    code.drop (coveredBytes (insns ++ [insn])) =
      (code.drop (coveredBytes insns)).drop insn.size.toNat := by
  rw [coveredBytes_append, coveredBytes_cons, coveredBytes_nil, Nat.add_zero, List.drop_drop]

/-- Records of which each has its place in a code, one directly behind the other. -/
def Along (holds : List UInt8 → UInt64 → Insn → Prop) : List UInt8 → UInt64 → List Insn → Prop
  | _, _, [] => True
  | code, address, insn :: rest => holds code address insn ∧
    Along holds (code.drop insn.size.toNat) (address + insn.size.toUInt64) rest

theorem along_append : Along holds code address (insns ++ rest) ↔ Along holds code address insns ∧
    Along holds (code.drop (coveredBytes insns)) (address + (coveredBytes insns).toUInt64)
      rest := by
  induction insns generalizing code address with
  | nil => simp [Along]
  | cons insn insns ih =>
    rw [List.cons_append, Along, Along, ih, coveredBytes_cons, List.drop_drop, add_covered,
      and_assoc]

theorem holds_of_along (h : Along holds code address insns) (hi : insns[i]? = some insn) :
    holds (code.drop (coveredBytes (insns.take i)))
      (address + (coveredBytes (insns.take i)).toUInt64) insn := by
  obtain ⟨hlt, hget⟩ := List.getElem?_eq_some_iff.1 hi
  rw [← List.take_append_drop i insns, List.drop_eq_getElem_cons hlt, hget] at h
  exact (along_append.1 h).2.1

theorem Along.imp (h : Along holds code address insns)
    (himp : ∀ code address insn, holds code address insn → other code address insn) :
    Along other code address insns := by
  induction insns generalizing code address with
  | nil => trivial
  | cons insn insns ih => exact ⟨himp _ _ _ h.1, ih h.2⟩

end Disassembly
