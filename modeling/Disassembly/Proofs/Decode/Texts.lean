import Disassembly.Proofs.Decode.Cap
import Disassembly.Proofs.Decode.RawBytes
import Disassembly.Proofs.Text.Overwriting
/-!
# How the texts of records come about

A record is blank at first, and its texts are only ever written. Decoding a record and combining two
of them do nothing else, so that the texts of every record that a decode leaves behind were written.
-/
namespace Disassembly

namespace Insn

/-- A record as it comes about: blank, and then changed by writing its texts and in ways that leave
them alone. -/
inductive Arises : Insn → Prop where
  | blank (address : UInt64) (size : UInt16) : Arises (.blank address size)
  | setMnemonic {insn : Insn} (text : String) : Arises insn → Arises (insn.setMnemonic text)
  | setOpStr {insn : Insn} (text : String) : Arises insn → Arises (insn.setOpStr text)
  | alter {insn insn' : Insn} : Arises insn → insn'.mnemonic = insn.mnemonic →
      insn'.opStr = insn.opStr → Arises insn'

variable {insn old new : Insn} {insns rest : List Insn}

theorem Arises.written (h : insn.Arises) : insn.mnemonic.Written ∧ insn.opStr.Written := by
  induction h with
  | blank address size => exact ⟨Field.written_zero _, Field.written_zero _⟩
  | setMnemonic text _ ih => exact ⟨⟨text, rfl⟩, ih.2⟩
  | setOpStr text _ ih => exact ⟨ih.1, ⟨text, rfl⟩⟩
  | alter _ hmnemonic hopStr ih => rwa [hmnemonic, hopStr]

theorem arises_of_written (hmnemonic : insn.mnemonic.Written) (hopStr : insn.opStr.Written) :
    insn.Arises := by
  obtain ⟨mnemonic, hmnemonic⟩ := hmnemonic
  obtain ⟨opStr, hopStr⟩ := hopStr
  exact (((Arises.blank insn.address insn.size).setMnemonic mnemonic).setOpStr opStr).alter
    hmnemonic hopStr

theorem arises_ofDecoded (backend : Backend) (detail : Bool) (decoded : Decoded) (text : String)
    (code : List UInt8) (payload : Option (Payload Detail)) :
    (ofDecoded backend detail decoded text code payload).Arises :=
  arises_of_written ⟨_, rfl⟩ ⟨_, rfl⟩

def AllArise (insns : List Insn) : Prop := ∀ insn ∈ insns, insn.Arises

theorem allArise_append : AllArise (insns ++ rest) ↔ AllArise insns ∧ AllArise rest :=
  List.forall_mem_append

theorem allArise_singleton : AllArise [insn] ↔ insn.Arises := List.forall_mem_singleton

end Insn

open Insn (AllArise allArise_append allArise_singleton)

theorem X86.Fused.arises {old insn new : Insn} (h : Fused old insn new) : new.Arises := by
  obtain ⟨mnemonic, -, -, rfl⟩ := h
  exact Insn.arises_of_written ⟨_, rfl⟩ ⟨_, rfl⟩

theorem Toy.Fused.arises {old insn new : Insn} (h : Fused old insn new) : new.Arises := by
  obtain ⟨-, rfl⟩ := h
  exact Insn.arises_of_written ⟨_, rfl⟩ ⟨_, rfl⟩

namespace Backend

structure KeepsTexts (backend : Backend) : Prop where
  keepsSize : backend.KeepsSize
  fuses : backend.FusesBy fun old _ new => old.Arises → new.Arises

variable {backend : Backend} {insns rest : List Insn} {insn : Insn}

theorem KeepsTexts.offerTo (h : backend.KeepsTexts) (hinsns : AllArise insns)
    (hinsn : insn.Arises) : AllArise (backend.offerTo insns insn) := by
  have hoffered := offerTo_offered h.fuses insns insn
  generalize backend.offerTo insns insn = offered at hoffered
  cases hoffered with
  | apart => exact allArise_append.2 ⟨hinsns, allArise_singleton.2 hinsn⟩
  | fused hlast hfused =>
    subst hlast
    obtain ⟨hinit, hold⟩ := allArise_append.1 hinsns
    exact allArise_append.2 ⟨hinit, allArise_singleton.2 (hfused (allArise_singleton.1 hold))⟩

theorem KeepsTexts.offerUpTo (h : backend.KeepsTexts) (count : Nat) (hrest : AllArise rest) :
    AllArise (backend.offerUpTo count [] rest) := by
  obtain ⟨-, hkept, -⟩ := offerUpTo_keeps
    (motive := fun insns rest => AllArise insns ∧ AllArise rest)
    (fun insns insn rest hboth => by
      obtain ⟨hinsn, hrest⟩ := List.forall_mem_cons.1 hboth.2
      exact ⟨h.offerTo hboth.1 hinsn, hrest⟩)
    count ⟨fun _ hmem => absurd hmem List.not_mem_nil, hrest⟩
  exact hkept

end Backend

theorem Arch.keepsTexts_backend (arch : Arch) (decoder : Decoder) :
    (arch.backend decoder).KeepsTexts :=
  ⟨(arch.standard_backend decoder).keepsSize,
    (arch.fusesBy_backend decoder).imp fun _ _ _ hfused _ => hfused.arises⟩

theorem Toy.keepsTexts_backend : backend.KeepsTexts :=
  ⟨standard_backend.keepsSize, (Backend.fusesBy_toy rfl).imp fun _ _ _ hfused _ => hfused.arises⟩

namespace RuleFamily

theorem fuses_fuseBy (fusions : List Fusion) (insn : Insn) (last : Option Insn) :
    fuseBy fusions insn last = .apart insn last ∨
      ∃ old new, last = some old ∧ (fuseBy fusions insn last).folded = true ∧
        (fuseBy fusions insn last).last = some new ∧ (old.Arises → new.Arises) := by
  rcases fuseBy_cases fusions insn last with hapart | ⟨old, fusion, -, rfl, -, -, hfused⟩
  · exact .inl hapart
  · rw [hfused]
    exact .inr ⟨old, _, rfl, rfl, rfl,
      fun hold => Insn.arises_of_written ⟨fusion.mnemonic, rfl⟩ hold.written.2⟩

theorem keepsTexts_backend (family : RuleFamily) : family.backend.KeepsTexts := by
  refine ⟨keepsSize_backend family, ?_⟩
  unfold backend
  dsimp only
  split
  · exact (Backend.fusesBy_x86 rfl).imp fun _ _ _ hfused _ => hfused.arises
  · next corrections fusions _ => exact fuses_fuseBy fusions

end RuleFamily

namespace Session

variable {session : Session} {host host' : Host} {code : List UInt8} {address : UInt64}

theorem allArise_records (session : Session) (writer : Provider) (code : List UInt8)
    (address : UInt64) : AllArise (session.records writer code address) := by
  induction code, address using session.decode_induction with
  | stop code address hnone =>
    rw [records_of_none hnone]
    exact fun _ hmem => absurd hmem List.not_mem_nil
  | step code address decoded hsome ih =>
    rw [records_of_some hsome]
    exact List.forall_mem_cons.2 ⟨Insn.arises_ofDecoded _ _ _ _ _ _, ih⟩

theorem allArise_fill (h : session.backend.KeepsTexts) {slots : List Insn}
    (hslots : AllArise slots) (host : Host) (code : List UInt8) (address : UInt64) :
    AllArise (session.fill host code address slots).1.slots := by
  have hfills := fill_spec h.keepsSize (host.provider session.provider) slots host code address
    fun _ _ => rfl
  refine allArise_append.2 ⟨?_, ?_⟩
  · intro insn hmem
    exact session.allArise_records _ code address insn (hfills.produced.subset hmem)
  · rw [hfills.untouched]
    exact fun insn hmem => hslots insn (List.mem_of_mem_drop hmem)

theorem allArise_collect (h : session.backend.KeepsTexts) {count : Nat}
    {instructions : Instructions}
    (hok : session.collect host code address count = (.ok instructions, host')) :
    AllArise instructions.insns := by
  have hcollected := collect_collected h.keepsSize (host.provider session.provider) host code
    address count fun _ _ => rfl
  rw [hok] at hcollected
  cases hcollected with
  | all => exact h.offerUpTo count (session.allArise_records _ code address)

end Session

end Disassembly
