import Disassembly.Family
import Disassembly.Family.Rules
import Disassembly.Family.Toy
import Disassembly.Proofs.Decode.Tiling
/-!
# What the families make of records

No family changes the size of a record when it corrects a line. A family that fuses records makes
one of two that lie side by side and have room in it, so that the sizes add up.
-/
namespace Disassembly

theorem toNat_add_size {a b : UInt16} (h : a.toNat + b.toNat ≤ insnBytes) :
    (a + b).toNat = a.toNat + b.toNat := by
  have hroom : a.toNat + b.toNat ≤ 16 := h
  rw [UInt16.toNat_add]
  omega

theorem X86.joins_combine (insn : Insn) (last : Option Insn) :
    Offer.Joins insn last (combine insn last) := by
  unfold combine
  split
  · next mnemonic last _ =>
    split
    · next hprecedes =>
      have hroom : last.size.toNat + insn.size.toNat ≤ insnBytes := by
        simp only [precedes, Bool.and_eq_true, decide_eq_true_eq] at hprecedes
        exact hprecedes.2
      exact .joined rfl rfl rfl (toNat_add_size hroom)
    · exact .apart _
  · exact .apart _

namespace Toy

theorem joins_combine (insn : Insn) (last : Option Insn) :
    Offer.Joins insn last (combine insn last) := by
  unfold combine
  split
  · exact .apart _
  · next last =>
    split
    · next hprecedes =>
      have hroom : last.size.toNat + insn.size.toNat ≤ insnBytes := by
        simp only [Bool.and_eq_true, decide_eq_true_eq] at hprecedes
        exact hprecedes.2
      exact .joined rfl rfl rfl (toNat_add_size hroom)
    · exact .apart _

theorem keepsPlace_backend : backend.KeepsPlace := fun _ _ => ⟨rfl, rfl⟩

theorem echoes_backend : backend.Echoes := by
  intro dialect code address detail decoded h
  simp only [backend, decode, Option.map_eq_some_iff] at h
  obtain ⟨-, -, rfl⟩ := h
  rfl

def session (provider : ProviderId) : Session where
  arch := .x86
  mode := .mode32
  backend := backend
  sideTable := none
  grant := { provider, size := sessionBytes, held := true }

end Toy

namespace Arch

theorem keepsPlace_backend (arch : Arch) (decoder : Decoder) :
    (arch.backend decoder).KeepsPlace := by
  unfold backend
  dsimp only
  split <;> exact fun _ _ => ⟨rfl, rfl⟩

theorem echoes_backend (arch : Arch) (decoder : Decoder) : (arch.backend decoder).Echoes := by
  intro dialect code address detail decoded h
  have hdecode : arch.decode decoder dialect code address detail = some decoded := by
    unfold backend at h
    dsimp only at h
    split at h <;> exact h
  unfold decode at hdecode
  split at hdecode
  · cases hdecode
  · split at hdecode
    · cases hdecode
      rfl
    · cases hdecode

theorem combine_backend (arch : Arch) (decoder : Decoder) :
    (arch.backend decoder).combine = X86.combine ∨ (arch.backend decoder).combine = .apart := by
  unfold backend
  dsimp only
  split
  · exact .inl rfl
  · exact .inr rfl

theorem joins_backend (arch : Arch) (decoder : Decoder) : (arch.backend decoder).Joins := by
  intro insn last
  rcases arch.combine_backend decoder with hcombine | hcombine
  · rw [hcombine]
    exact X86.joins_combine insn last
  · rw [hcombine]
    exact .apart last

end Arch

theorem RuleFamily.keepsSize_backend (family : RuleFamily) : family.backend.KeepsSize := by
  intro insn text
  unfold backend
  dsimp only
  split
  · rfl
  · unfold correctBy
    dsimp only
    split <;> rfl

end Disassembly
