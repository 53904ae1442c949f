import Disassembly.Proofs.Memory.Exchange
/-!
# Requests under a limit

A provider with a limit grants a request as long as what it holds and what is asked for stay within
the limit together. The sum that it compares is capped at the largest word, which makes a
difference only where that word is the limit itself.
-/
namespace Disassembly

namespace Ledger

variable {ledger : Ledger} {limit size : UInt64}

theorem admits_iff (hpolicy : ledger.policy = .limit limit)
    (hcap : limit.toNat < 2 ^ 64 - 1 ∨ ledger.liveBytes.toNat + size.toNat < 2 ^ 64) :
    ledger.admits size = true ↔ ledger.liveBytes.toNat + size.toNat ≤ limit.toNat := by
  have hword : UInt64.size = 2 ^ 64 := rfl
  simp only [admits, hpolicy, decide_eq_true_eq, hword]
  omega

theorem answer_allocate (hpolicy : ledger.policy = .limit limit) (size : UInt64)
    (hcap : limit.toNat < 2 ^ 64 - 1 ∨ ledger.liveBytes.toNat + size.toNat < 2 ^ 64) :
    (ledger.allocate size).1 =
      if ledger.liveBytes.toNat + size.toNat ≤ limit.toNat then .ok ()
      else .error .outOfMemory := by
  have hadmits := admits_iff hpolicy hcap
  by_cases hroom : ledger.liveBytes.toNat + size.toNat ≤ limit.toNat
  · rw [if_pos hroom, allocate, if_pos (hadmits.2 hroom)]
  · rw [if_neg hroom, allocate, if_neg fun h => hroom (hadmits.1 h)]

/-- What counts is by how much a block grows. One that does not grow is never refused. -/
theorem answer_reallocate (hpolicy : ledger.policy = .limit limit)
    (hheld : ledger.liveBytes.toNat ≤ limit.toNat) (old new : UInt64)
    (hcap : limit.toNat < 2 ^ 64 - 1 ∨
      ledger.liveBytes.toNat + (new.toNat - old.toNat) < 2 ^ 64) :
    (ledger.reallocate old new).1 =
      if ledger.liveBytes.toNat + (new.toNat - old.toNat) ≤ limit.toNat then .ok ()
      else .error .outOfMemory := by
  by_cases hgrows : old < new
  · have hless : old.toNat < new.toNat := UInt64.lt_iff_toNat_lt.1 hgrows
    have hextra : (new - old).toNat = new.toNat - old.toNat :=
      UInt64.toNat_sub_of_le _ _ (UInt64.le_of_lt hgrows)
    rw [← hextra] at hcap ⊢
    have hadmits := admits_iff hpolicy hcap
    by_cases hroom : ledger.liveBytes.toNat + (new - old).toNat ≤ limit.toNat
    · rw [if_pos hroom, reallocate, if_pos hgrows, if_pos (hadmits.2 hroom)]
    · rw [if_neg hroom, reallocate, if_pos hgrows, if_neg fun h => hroom (hadmits.1 h)]
  · have hless : ¬ old.toNat < new.toNat := fun h => hgrows (UInt64.lt_iff_toNat_lt.2 h)
    rw [if_pos (by omega), reallocate, if_neg hgrows]

@[simp] theorem policy_allocate (ledger : Ledger) (size : UInt64) :
    (ledger.allocate size).2.policy = ledger.policy := by
  by_cases hadmits : ledger.admits size = true
  · rw [allocate, if_pos hadmits]
  · rw [allocate, if_neg hadmits]

end Ledger

namespace Host

theorem provider_setProvider_self {host : Host} {id : ProviderId} {ledger : Ledger}
    (h : host.provider id = .tracking ledger) (provider : Provider) :
    (host.setProvider id provider).provider id = provider := by
  rcases Nat.lt_or_ge id host.providers.length with hid | hid
  · simp [Host.provider, setProvider, hid]
  · have hsystem : host.provider id = .system := by
      simp [Host.provider, List.getElem?_eq_none hid]
    rw [hsystem] at h
    cases h

def Limited (host : Host) (id : ProviderId) (limit : UInt64) (held : Nat) : Prop :=
  ∃ ledger, host.provider id = .tracking ledger ∧ ledger.policy = .limit limit ∧
    ledger.liveBytes.toNat = held

end Host

namespace Grant

variable {host : Host} {id : ProviderId} {ledger : Ledger} {grant : Grant} {limit size : UInt64}
  {held : Nat}

theorem allocate_tracking (h : host.provider id = .tracking ledger) (size : UInt64) :
    ∃ host', host'.provider id = .tracking (ledger.allocate size).2 ∧
      allocate host id size =
        ((ledger.allocate size).1.map fun _ => { provider := id, size, held := true }, host') := by
  refine ⟨_, Host.provider_setProvider_self h (.tracking (ledger.allocate size).2), ?_⟩
  rw [allocate, Host.allocate, h, Provider.allocate]
  cases ledger.allocate size with
  | mk answer after => cases answer <;> rfl

theorem resize_tracking (hown : grant.provider = id) (h : host.provider id = .tracking ledger)
    (size : UInt64) :
    ∃ host', host'.provider id = .tracking (ledger.reallocate grant.size size).2 ∧
      grant.resize host size =
        ((ledger.reallocate grant.size size).1.map fun _ => { grant with size, held := true },
          host') := by
  refine ⟨_, Host.provider_setProvider_self h
    (.tracking (ledger.reallocate grant.size size).2), ?_⟩
  rw [resize, Host.reallocate, hown, h, Provider.reallocate]
  cases ledger.reallocate grant.size size with
  | mk answer after => cases answer <;> rfl

section Limited

variable (hlimit : limit.toNat < 2 ^ 64 - 1) (h : host.Limited id limit held)
include hlimit h

theorem allocate_of_room (hroom : held + size.toNat ≤ limit.toNat) :
    ∃ host', allocate host id size = (.ok { provider := id, size, held := true }, host') ∧
      host'.Limited id limit (held + size.toNat) := by
  obtain ⟨ledger, hledger, hpolicy, rfl⟩ := h
  obtain ⟨host', hafter, hallocate⟩ := allocate_tracking hledger size
  have hanswer := Ledger.answer_allocate hpolicy size (.inl hlimit)
  rw [if_pos hroom] at hanswer
  rw [hanswer] at hallocate
  refine ⟨host', hallocate, _, hafter, (ledger.policy_allocate size).trans hpolicy, ?_⟩
  rw [(Ledger.allocate_granted hanswer).1, UInt64.toNat_add]
  exact Nat.mod_eq_of_lt (by omega)

theorem allocate_of_full (hfull : limit.toNat < held + size.toNat) :
    ∃ host', allocate host id size = (.error .outOfMemory, host') := by
  obtain ⟨ledger, hledger, hpolicy, rfl⟩ := h
  obtain ⟨host', -, hallocate⟩ := allocate_tracking hledger size
  have hanswer := Ledger.answer_allocate hpolicy size (.inl hlimit)
  rw [if_neg (Nat.not_le.2 hfull)] at hanswer
  rw [hanswer] at hallocate
  exact ⟨host', hallocate⟩

variable (hown : grant.provider = id) (hheld : held ≤ limit.toNat)
include hown hheld

theorem resize_of_room (hroom : held + (size.toNat - grant.size.toNat) ≤ limit.toNat) :
    ∃ host', grant.resize host size = (.ok { grant with size, held := true }, host') := by
  obtain ⟨ledger, hledger, hpolicy, rfl⟩ := h
  obtain ⟨host', -, hresize⟩ := resize_tracking hown hledger size
  have hanswer := Ledger.answer_reallocate hpolicy hheld grant.size size (.inl hlimit)
  rw [if_pos hroom] at hanswer
  rw [hanswer] at hresize
  exact ⟨host', hresize⟩

theorem resize_of_full (hfull : limit.toNat < held + (size.toNat - grant.size.toNat)) :
    ∃ host', grant.resize host size = (.error .outOfMemory, host') := by
  obtain ⟨ledger, hledger, hpolicy, rfl⟩ := h
  obtain ⟨host', -, hresize⟩ := resize_tracking hown hledger size
  have hanswer := Ledger.answer_reallocate hpolicy hheld grant.size size (.inl hlimit)
  rw [if_neg (Nat.not_le.2 hfull)] at hanswer
  rw [hanswer] at hresize
  exact ⟨host', hresize⟩

end Limited

end Grant

namespace Payload

variable {α : Type} [Footprint α] {host : Host} {id : ProviderId} {limit : UInt64} {held : Nat}
  {value : α}

section Limited

variable (hlimit : limit.toNat < 2 ^ 64 - 1) (h : host.Limited id limit held)
include hlimit h

theorem allocate_of_room (hroom : held + (Footprint.cost value).toNat ≤ limit.toNat) :
    ∃ host', allocate host id value = (.ok (paid id value), host') ∧
      host'.Limited id limit (held + (Footprint.cost value).toNat) := by
  obtain ⟨host', hgrant, hafter⟩ := Grant.allocate_of_room hlimit h hroom
  refine ⟨host', ?_, hafter⟩
  rw [allocate, hgrant]
  rfl

theorem allocate_of_full (hfull : limit.toNat < held + (Footprint.cost value).toNat) :
    ∃ host', allocate host id value = (.error .outOfMemory, host') := by
  obtain ⟨host', hgrant⟩ := Grant.allocate_of_full hlimit h hfull
  refine ⟨host', ?_⟩
  rw [allocate, hgrant]

end Limited

end Payload

end Disassembly
