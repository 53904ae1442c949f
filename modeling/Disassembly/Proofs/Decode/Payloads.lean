import Disassembly.Proofs.Decode.Dynamic
import Disassembly.Proofs.Decode.Fixed
import Disassembly.Proofs.Family.Combiners
/-!
# Payloads that are paid for

Every payload that a record carries is paid for in full. Decoding makes only such records, and
combining hands payloads on as they are.
-/
namespace Disassembly

def Insn.Paid (insn : Insn) : Prop :=
  ∀ payload, insn.detail = some payload → payload = .paid payload.grant.provider payload.value

def Insn.AllPaid (insns : List Insn) : Prop := ∀ insn ∈ insns, insn.Paid

theorem Insn.allPaid_nil : AllPaid [] := fun _ hmem => absurd hmem List.not_mem_nil

theorem Insn.paid_of_detail {a b : Insn} (h : a.detail = b.detail) (hb : b.Paid) : a.Paid := by
  intro payload hpayload
  exact hb payload (h ▸ hpayload)

theorem Insn.paid_of_none {insn : Insn} (h : insn.detail = none) : insn.Paid := by
  intro payload hpayload
  rw [h] at hpayload
  cases hpayload

structure Offer.Paid (offer : Offer) : Prop where
  insn : offer.insn.Paid
  last : ∀ new, offer.last = some new → new.Paid

/-- A collaborator that keeps the size of a record when it corrects a line, and never touches a
payload. -/
structure Backend.Honest (backend : Backend) : Prop where
  keepsSize : backend.KeepsSize
  keepsDetail : ∀ insn text, (backend.correct insn text).insn.detail = insn.detail
  keepsPayment : ∀ insn last, insn.Paid → (∀ old, last = some old → old.Paid) →
    (backend.combine insn last).Paid

namespace Offer

variable {insn : Insn} {last : Option Insn}

theorem paid_apart (hinsn : insn.Paid) (hlast : ∀ old, last = some old → old.Paid) :
    (apart insn last).Paid := ⟨hinsn, hlast⟩

theorem paid_combine_x86 (hinsn : insn.Paid) (hlast : ∀ old, last = some old → old.Paid) :
    (X86.combine insn last).Paid := by
  unfold X86.combine
  split
  · split
    · refine ⟨Insn.paid_of_none rfl, ?_⟩
      intro new hnew
      rw [← Option.some.inj hnew]
      exact Insn.paid_of_detail rfl hinsn
    · exact paid_apart hinsn hlast
  · exact paid_apart hinsn hlast

theorem paid_combine_toy (hinsn : insn.Paid) (hlast : ∀ old, last = some old → old.Paid) :
    (Toy.combine insn last).Paid := by
  unfold Toy.combine
  split
  · exact paid_apart hinsn hlast
  · split
    · refine ⟨Insn.paid_of_none rfl, ?_⟩
      intro new hnew
      rw [← Option.some.inj hnew]
      exact Insn.paid_of_detail rfl hinsn
    · exact paid_apart hinsn hlast

theorem paid_fuseBy (fusions : List Fusion) (hinsn : insn.Paid)
    (hlast : ∀ old, last = some old → old.Paid) : (RuleFamily.fuseBy fusions insn last).Paid := by
  rcases RuleFamily.fuseBy_cases fusions insn last with
    hapart | ⟨old, fusion, -, rfl, -, -, hfused⟩
  · rw [hapart]
    exact paid_apart hinsn hlast
  · rw [hfused]
    refine ⟨hinsn, ?_⟩
    intro new hnew
    rw [← Option.some.inj hnew]
    exact Insn.paid_of_detail rfl (hlast old rfl)

end Offer

theorem Toy.honest_backend : backend.Honest :=
  ⟨keepsPlace_backend.keepsSize, fun _ _ => rfl, fun _ _ => Offer.paid_combine_toy⟩

theorem Arch.honest_backend (arch : Arch) (decoder : Decoder) : (arch.backend decoder).Honest := by
  refine ⟨(keepsPlace_backend arch decoder).keepsSize, ?_, ?_⟩
  · unfold backend
    dsimp only
    split <;> exact fun _ _ => rfl
  · intro insn last hinsn hlast
    rcases combine_backend arch decoder with h | h <;> rw [h]
    · exact Offer.paid_combine_x86 hinsn hlast
    · exact Offer.paid_apart hinsn hlast

theorem RuleFamily.honest_backend (family : RuleFamily) : family.backend.Honest := by
  refine ⟨keepsSize_backend family, ?_, ?_⟩
  · intro insn text
    unfold backend
    dsimp only
    split
    · rfl
    · unfold correctBy
      dsimp only
      split <;> rfl
  · intro insn last hinsn hlast
    unfold backend
    dsimp only
    split
    · exact Offer.paid_combine_x86 hinsn hlast
    · exact Offer.paid_fuseBy _ hinsn hlast

namespace Backend.Honest

variable {backend : Backend} {insns rest : List Insn} {insn : Insn}

theorem offerTo (h : backend.Honest) (hinsns : Insn.AllPaid insns) (hinsn : insn.Paid) :
    Insn.AllPaid (backend.offerTo insns insn) := by
  have hoffer := h.keepsPayment insn insns.getLast? hinsn
    fun old hold => hinsns old (List.mem_of_getLast? hold)
  have hlast :
      Insn.AllPaid (Insn.withLast insns (backend.combine insn insns.getLast?).last) := by
    intro other hmem
    cases hnew : (backend.combine insn insns.getLast?).last with
    | none =>
      rw [hnew] at hmem
      exact hinsns other hmem
    | some new =>
      rw [hnew, Insn.withLast, List.mem_append, List.mem_singleton] at hmem
      rcases hmem with hmem | rfl
      · exact hinsns other ((List.dropLast_sublist insns).subset hmem)
      · exact hoffer.last other hnew
  intro other hmem
  unfold Backend.offerTo at hmem
  dsimp only at hmem
  split at hmem
  · exact hlast other hmem
  · rcases List.mem_append.1 hmem with hmem | hmem
    · exact hlast other hmem
    · rw [List.mem_singleton.1 hmem]
      exact hoffer.insn

theorem offerUpTo (h : backend.Honest) (count : Nat) (hinsns : Insn.AllPaid insns)
    (hrest : Insn.AllPaid rest) : Insn.AllPaid (backend.offerUpTo count insns rest) := by
  induction rest generalizing insns with
  | nil => exact hinsns
  | cons insn rest ih =>
    have hnext := h.offerTo hinsns (hrest insn List.mem_cons_self)
    rw [Backend.offerUpTo]
    split
    · exact hnext
    · exact ih hnext fun other hmem => hrest other (List.mem_cons_of_mem _ hmem)

end Backend.Honest

namespace Session

variable {session : Session} {host : Host} {slots : List Insn}

theorem paid_record (h : session.backend.Honest) (writer : Provider) (code : List UInt8)
    (decoded : Decoded) : (session.record writer code decoded).Paid := by
  intro payload hpayload
  simp only [record, Insn.ofDecoded, Insn.setOpStr, Insn.setMnemonic, h.keepsDetail, payloadOf,
    Option.map_eq_some_iff] at hpayload
  obtain ⟨value, -, rfl⟩ := hpayload
  rfl

theorem paid_records (h : session.backend.Honest) (writer : Provider) (code : List UInt8)
    (address : UInt64) : Insn.AllPaid (session.records writer code address) := by
  induction code, address using session.decode_induction with
  | stop code address hnone =>
    rw [records_of_none hnone]
    exact Insn.allPaid_nil
  | step code address decoded hsome ih =>
    rw [records_of_some hsome]
    intro insn hmem
    rcases List.mem_cons.1 hmem with rfl | hmem
    · exact paid_record h writer code decoded
    · exact ih insn hmem

theorem paid_fill (h : session.backend.Honest) (hslots : Insn.AllPaid slots) (host : Host)
    (code : List UInt8) (address : UInt64) :
    Insn.AllPaid (session.fill host code address slots).1.slots := by
  have hfills := fill_spec h.keepsSize (host.provider session.provider) slots host code address
    fun _ _ => rfl
  intro insn hmem
  rcases List.mem_append.1 hmem with hmem | hmem
  · exact paid_records h _ code address insn (hfills.produced.subset hmem)
  · rw [hfills.untouched] at hmem
    exact hslots insn (List.mem_of_mem_drop hmem)

theorem paid_collect (h : session.backend.Honest) {code : List UInt8} {address : UInt64}
    {count : Nat} {instructions : Instructions} {host' : Host}
    (hok : session.collect host code address count = (.ok instructions, host')) :
    Insn.AllPaid instructions.insns ∧ instructions.Paid session.provider ∧
      host.Exchange [] host' instructions.grants := by
  have hcollected := collect_collected h.keepsSize (host.provider session.provider) host code
    address count fun _ _ => rfl
  rw [hok] at hcollected
  cases hcollected with
  | all hpaid hexchange =>
    refine ⟨?_, hpaid, hexchange⟩
    exact h.offerUpTo count Insn.allPaid_nil (paid_records h _ code address)

end Session

end Disassembly
