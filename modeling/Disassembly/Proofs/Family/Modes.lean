import Disassembly.Family
import Mathlib.Data.Fintype.Basic
/-!
# The modes of the families

A mode is looked at as the set of bits in it. The tests of the families, which compare, mask and
subtract words, come to conditions on that set.
-/
namespace Disassembly

namespace Mode

def positions (mode : Mode) : Finset (Fin 32) :=
  Finset.univ.filter fun i => mode.bits.toNat.testBit i

variable {mode other : Mode} {i : Fin 32}

theorem mem_positions : i ∈ mode.positions ↔ mode.bits.toNat.testBit i = true := by
  rw [positions, Finset.mem_filter]
  exact and_iff_right (Finset.mem_univ i)

theorem positions_inj : mode.positions = other.positions ↔ mode = other := by
  constructor
  · intro h
    obtain ⟨bits⟩ := mode
    obtain ⟨others⟩ := other
    congr 1
    apply UInt32.toNat_inj.1
    apply Nat.eq_of_testBit_eq
    intro k
    by_cases hk : k < 32
    · have hmem := Finset.ext_iff.1 h ⟨k, hk⟩
      rw [mem_positions, mem_positions] at hmem
      exact Bool.eq_iff_iff.2 hmem
    · have hpow : 2 ^ 32 ≤ 2 ^ k := Nat.pow_le_pow_right (by decide) (by omega)
      rw [Nat.testBit_lt_two_pow (bits.toNat_lt.trans_le hpow),
        Nat.testBit_lt_two_pow (others.toNat_lt.trans_le hpow)]
  · exact congrArg positions

theorem positions_union (mode other : Mode) :
    (mode.union other).positions = mode.positions ∪ other.positions := by
  ext i
  rw [Finset.mem_union, mem_positions, mem_positions, mem_positions, union, UInt32.toNat_or,
    Nat.testBit_or, Bool.or_eq_true]

theorem positions_inter (mode other : Mode) :
    (⟨mode.bits &&& other.bits⟩ : Mode).positions = mode.positions ∩ other.positions := by
  ext i
  rw [Finset.mem_inter, mem_positions, mem_positions, mem_positions, UInt32.toNat_and,
    Nat.testBit_and, Bool.and_eq_true]

theorem positions_difference (mode other : Mode) :
    (mode.difference other).positions = mode.positions \ other.positions := by
  ext i
  have hnot : (~~~other.bits).toNat.testBit i = !other.bits.toNat.testBit i := by
    show (~~~other.bits.toBitVec).getLsbD i = !other.bits.toBitVec.getLsbD i
    rw [BitVec.getLsbD_not, decide_eq_true i.isLt, Bool.true_and]
  rw [Finset.mem_sdiff, mem_positions, mem_positions, mem_positions, difference, UInt32.toNat_and,
    Nat.testBit_and, Bool.and_eq_true, hnot, Bool.not_eq_true', Bool.not_eq_true]

theorem difference_eq_iff {flag : Mode} :
    mode.difference flag = other ↔ mode.positions \ flag.positions = other.positions := by
  rw [← positions_difference, positions_inj]

theorem contains_iff : mode.contains other = true ↔ other.positions ⊆ mode.positions := by
  obtain ⟨bits⟩ := mode
  obtain ⟨others⟩ := other
  calc (⟨bits⟩ : Mode).contains ⟨others⟩ = true
    _ ↔ (⟨bits &&& others⟩ : Mode) = ⟨others⟩ := by rw [contains, beq_iff_eq, Mode.mk.injEq]
    _ ↔ (⟨bits⟩ : Mode).positions ∩ (⟨others⟩ : Mode).positions = (⟨others⟩ : Mode).positions := by
      rw [← positions_inter, positions_inj]
    _ ↔ (⟨others⟩ : Mode).positions ⊆ (⟨bits⟩ : Mode).positions := Finset.inter_eq_right

theorem positions_mode16 : mode16.positions = {1} := by decide
theorem positions_mode32 : mode32.positions = {2} := by decide
theorem positions_mode64 : mode64.positions = {3} := by decide
theorem positions_thumb : thumb.positions = {4} := by decide
theorem positions_bigEndian : bigEndian.positions = {31} := by decide
theorem positions_named : named.positions = {1, 2, 3, 4, 5, 31} := by decide

theorem isBigEndian_eq (mode : Mode) : mode.isBigEndian = mode.bits.toNat.testBit 31 := by
  apply Bool.eq_iff_iff.2
  rw [isBigEndian, contains_iff, positions_bigEndian, Finset.singleton_subset_iff, mem_positions]
  exact Iff.rfl

theorem ofBits?_eq (bits : UInt32) :
    ofBits? bits =
      if (⟨bits⟩ : Mode).positions ⊆ {1, 2, 3, 4, 5, 31} then some ⟨bits⟩ else none := by
  have hnamed := @contains_iff named ⟨bits⟩
  rw [positions_named] at hnamed
  rw [ofBits?]
  exact if_congr hnamed rfl rfl

end Mode

namespace Arch

open Mode

/-- The modes that a family runs in, by the bits that are set: 1 to 3 are the widths of 16, 32 and
64 bits, 4 is thumb and 31 is big endian. -/
def RunsIn (arch : Arch) (mode : Mode) : Prop :=
  match arch with
  | arm => mode.positions ⊆ {4, 31}
  | arm64 => mode.positions ⊆ {31}
  | mips | ppc => mode.positions \ {31} = {2} ∨ mode.positions \ {31} = {3}
  | x86 => mode.positions = {1} ∨ mode.positions = {2} ∨ mode.positions = {3}

instance (arch : Arch) (mode : Mode) : Decidable (arch.RunsIn mode) :=
  match arch with
  | arm => inferInstanceAs (Decidable (mode.positions ⊆ {4, 31}))
  | arm64 => inferInstanceAs (Decidable (mode.positions ⊆ {31}))
  | mips | ppc | x86 => inferInstanceAs (Decidable (_ ∨ _))

theorem isSome_ite_else {p : Prop} [Decidable p] (machine : Machine) (rest : Option Machine) :
    (if p then some machine else rest).isSome = true ↔ p ∨ rest.isSome = true := by
  by_cases h : p
  · rw [if_pos h]
    exact iff_of_true rfl (.inl h)
  · rw [if_neg h]
    exact (or_iff_right h).symm

theorem isSome_machine? (arch : Arch) (mode : Mode) :
    (arch.machine? mode).isSome = true ↔ arch.RunsIn mode := by
  cases arch with
  | arm =>
    rw [machine?, Option.isSome_ite, contains_iff, positions_union, positions_thumb,
      positions_bigEndian]
    exact Iff.rfl
  | arm64 =>
    rw [machine?, Option.isSome_ite, contains_iff, positions_bigEndian]
    exact Iff.rfl
  | mips | ppc =>
    rw [machine?, isSome_ite_else, Option.isSome_ite, difference_eq_iff, difference_eq_iff,
      positions_bigEndian, positions_mode32, positions_mode64]
    exact Iff.rfl
  | x86 =>
    rw [machine?, isSome_ite_else, isSome_ite_else, Option.isSome_ite, ← positions_inj,
      ← positions_inj, ← positions_inj, positions_mode16, positions_mode32, positions_mode64]
    exact Iff.rfl

theorem machine?_eq_none (arch : Arch) (mode : Mode) :
    arch.machine? mode = none ↔ ¬ arch.RunsIn mode := by
  rw [← isSome_machine?, Bool.not_eq_true, Option.isSome_eq_false_iff, Option.isNone_iff_eq_none]

end Arch

end Disassembly
