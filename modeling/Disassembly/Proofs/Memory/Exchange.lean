import Mathlib.Algebra.GroupWithZero.Nat
import Disassembly.Memory.Grant
/-!
# Blocks and counters

An exchange leads from a host where some blocks are held to one where others are. It leaves every
provider the rule by which it grants, and moves each pair of counters by exactly the blocks that
came and went. The counters wrap, so that all sums are compared modulo `2 ^ 64`.
-/
namespace Disassembly

namespace Provider

def reset : Provider → Provider
  | tracking ledger => tracking { policy := ledger.policy }
  | provider => provider

def liveBytes (provider : Provider) : Nat := (provider.ledger?.map (·.liveBytes.toNat)).getD 0

def liveBlocks (provider : Provider) : Nat := (provider.ledger?.map (·.liveBlocks.toNat)).getD 0

def counts (provider : Provider) : Bool := provider.ledger?.isSome

/-- A provider that grants every request, whatever it holds and however often it was asked. -/
def NeverRefuses (provider : Provider) : Prop :=
  ∀ later : Provider, later.reset = provider.reset →
    (∀ size, (later.allocate size).1 = .ok ()) ∧ ∀ old new, (later.reallocate old new).1 = .ok ()

@[simp] theorem counts_reset (provider : Provider) : provider.reset.counts = provider.counts := by
  cases provider <;> rfl

theorem counts_of_reset {p q : Provider} (h : p.reset = q.reset) : p.counts = q.counts := by
  rw [← counts_reset p, h, counts_reset]

theorem liveBytes_lt (provider : Provider) : provider.liveBytes < 2 ^ 64 := by
  cases provider with
  | tracking ledger => exact ledger.liveBytes.toNat_lt
  | _ => exact Nat.two_pow_pos 64

theorem liveBlocks_lt (provider : Provider) : provider.liveBlocks < 2 ^ 64 := by
  cases provider with
  | tracking ledger => exact ledger.liveBlocks.toNat_lt
  | _ => exact Nat.two_pow_pos 64

theorem reset_allocate (provider : Provider) (size : UInt64) :
    (provider.allocate size).2.reset = provider.reset := by
  cases provider with
  | tracking ledger => simp only [allocate, Ledger.allocate]; split <;> rfl
  | _ => rfl

theorem reset_reallocate (provider : Provider) (old new : UInt64) :
    (provider.reallocate old new).2.reset = provider.reset := by
  cases provider with
  | tracking ledger =>
    simp only [reallocate, Ledger.reallocate]
    split
    · split <;> rfl
    · rfl
  | _ => rfl

theorem reset_release (provider : Provider) (size : UInt64) :
    (provider.release size).reset = provider.reset := by
  cases provider <;> rfl

theorem neverRefuses_system : system.NeverRefuses := by
  intro later hlater
  cases later with
  | system => exact ⟨fun _ => rfl, fun _ _ => rfl⟩
  | tracking | unwritable => cases hlater

theorem neverRefuses_unlimited {ledger : Ledger} (h : ledger.policy = .unlimited) :
    (tracking ledger).NeverRefuses := by
  intro later hlater
  cases later with
  | tracking other =>
    have hpolicy : other.policy = .unlimited := by
      simpa [reset, h] using hlater
    constructor
    · intro size
      simp [allocate, Ledger.allocate, Ledger.admits, hpolicy]
    · intro old new
      by_cases hlt : old < new <;>
        simp [reallocate, Ledger.reallocate, Ledger.admits, hpolicy, hlt]
  | system | unwritable => cases hlater

theorem format_reset {p q : Provider} (h : p.reset = q.reset) (out text : String) :
    p.format out text = q.format out text := by
  cases p <;> cases q <;> simp_all [reset, format]

end Provider

namespace Grant

def blocks (id : ProviderId) (grants : List Grant) : List Grant :=
  grants.filter fun grant => grant.held && grant.provider == id

def heldBytes (id : ProviderId) (grants : List Grant) : Nat :=
  ((blocks id grants).map (·.size.toNat)).sum

def heldBlocks (id : ProviderId) (grants : List Grant) : Nat := (blocks id grants).length

section Blocks

variable {id : ProviderId} {a b : List Grant}

@[simp] theorem heldBytes_nil : heldBytes id [] = 0 := rfl
@[simp] theorem heldBlocks_nil : heldBlocks id [] = 0 := rfl

@[simp] theorem heldBytes_append : heldBytes id (a ++ b) = heldBytes id a + heldBytes id b := by
  simp [heldBytes, blocks]

@[simp] theorem heldBlocks_append : heldBlocks id (a ++ b) = heldBlocks id a + heldBlocks id b := by
  simp [heldBlocks, blocks]

theorem heldBytes_perm (h : a.Perm b) : heldBytes id a = heldBytes id b :=
  ((h.filter _).map _).sum_nat

theorem heldBlocks_perm (h : a.Perm b) : heldBlocks id a = heldBlocks id b :=
  (h.filter _).length_eq

theorem heldBytes_singleton (grant : Grant) :
    heldBytes id [grant] = if grant.held ∧ grant.provider = id then grant.size.toNat else 0 := by
  by_cases h : grant.held ∧ grant.provider = id <;> simp_all [heldBytes, blocks]

theorem heldBlocks_singleton (grant : Grant) :
    heldBlocks id [grant] = if grant.held ∧ grant.provider = id then 1 else 0 := by
  by_cases h : grant.held ∧ grant.provider = id <;> simp_all [heldBlocks, blocks]

end Blocks

end Grant

namespace Host

open Grant

theorem provider_note (host : Host) (event : LogEvent) (id : ProviderId) :
    (host.note event).provider id = host.provider id := rfl

/-- Replacing one provider by what a request made of it. A number that was never given out has no
place to write to, and means the system, which no request changes. -/
theorem provider_setProvider (host : Host) (id : ProviderId) {f : Provider → Provider}
    (hf : f .system = .system) (other : ProviderId) :
    (host.setProvider id (f (host.provider id))).provider other =
      if other = id then f (host.provider id) else host.provider other := by
  by_cases hid : id < host.providers.length
  · by_cases ho : other = id
    · subst ho
      simp [provider, setProvider, hid]
    · simp [provider, setProvider, ho, List.getElem?_set_ne (Ne.symm ho)]
  · have hsys : host.provider id = .system := by
      simp [provider, List.getD_eq_getElem?_getD, List.getElem?_eq_none (Nat.le_of_not_lt hid)]
    have hset : host.setProvider id (f (host.provider id)) = host := by
      simp [setProvider, List.set_eq_of_length_le (Nat.le_of_not_lt hid)]
    rw [hset, hsys, hf]
    split
    · next ho => rw [ho, hsys]
    · rfl

structure Exchange (host : Host) (before : List Grant) (host' : Host) (after : List Grant) :
    Prop where
  reset : ∀ id, (host'.provider id).reset = (host.provider id).reset
  bytes : ∀ id, (host.provider id).counts →
    ((host'.provider id).liveBytes + heldBytes id before) % 2 ^ 64 =
      ((host.provider id).liveBytes + heldBytes id after) % 2 ^ 64
  blocks : ∀ id, (host.provider id).counts →
    ((host'.provider id).liveBlocks + heldBlocks id before) % 2 ^ 64 =
      ((host.provider id).liveBlocks + heldBlocks id after) % 2 ^ 64

namespace Exchange

variable {host host' host'' : Host} {a b c : List Grant}

theorem refl (host : Host) (a : List Grant) : host.Exchange a host a :=
  ⟨fun _ => rfl, fun _ _ => rfl, fun _ _ => rfl⟩

theorem empty (host : Host) (id : ProviderId) : host.Exchange [] host [Grant.empty id] :=
  ⟨fun _ => rfl, fun _ _ => rfl, fun _ _ => rfl⟩

theorem trans (h : host.Exchange a host' b) (k : host'.Exchange b host'' c) :
    host.Exchange a host'' c := by
  constructor
  · intro id
    exact (k.reset id).trans (h.reset id)
  · intro id hc
    have h1 := h.bytes id hc
    have h2 := k.bytes id (Provider.counts_of_reset (h.reset id) ▸ hc)
    omega
  · intro id hc
    have h1 := h.blocks id hc
    have h2 := k.blocks id (Provider.counts_of_reset (h.reset id) ▸ hc)
    omega

/-- Blocks that take no part may be held besides. -/
theorem frame (h : host.Exchange a host' b) (c : List Grant) :
    host.Exchange (a ++ c) host' (b ++ c) := by
  constructor
  · exact h.reset
  · intro id hc
    have := h.bytes id hc
    simp only [heldBytes_append]
    omega
  · intro id hc
    have := h.blocks id hc
    simp only [heldBlocks_append]
    omega

theorem perm (h : host.Exchange a host' b) {a' b' : List Grant} (ha : a'.Perm a)
    (hb : b'.Perm b) : host.Exchange a' host' b' := by
  constructor
  · exact h.reset
  · intro id hc
    rw [heldBytes_perm ha, heldBytes_perm hb]
    exact h.bytes id hc
  · intro id hc
    rw [heldBlocks_perm ha, heldBlocks_perm hb]
    exact h.blocks id hc

theorem note (h : host.Exchange a host' b) (event : LogEvent) :
    host.Exchange a (host'.note event) b := ⟨h.reset, h.bytes, h.blocks⟩

theorem counters_eq (h : host.Exchange a host' a) (id : ProviderId) :
    (host'.provider id).liveBytes = (host.provider id).liveBytes ∧
      (host'.provider id).liveBlocks = (host.provider id).liveBlocks := by
  have hcounts := Provider.counts_of_reset (h.reset id)
  cases hc : (host.provider id).counts with
  | false =>
    rw [hc] at hcounts
    simp only [Provider.counts, Option.isSome_eq_false_iff, Option.isNone_iff_eq_none] at hc hcounts
    simp [Provider.liveBytes, Provider.liveBlocks, hc, hcounts]
  | true =>
    have h1 := h.bytes id hc
    have h2 := h.blocks id hc
    have := (host.provider id).liveBytes_lt
    have := (host.provider id).liveBlocks_lt
    have := (host'.provider id).liveBytes_lt
    have := (host'.provider id).liveBlocks_lt
    omega

theorem neverRefuses (h : host.Exchange a host' b) {id : ProviderId}
    (hfree : (host.provider id).NeverRefuses) : (host'.provider id).NeverRefuses :=
  fun later hlater => hfree later (hlater.trans (h.reset id))

end Exchange

theorem blocks_of_other {id other : ProviderId} {grants : List Grant}
    (hgrants : ∀ grant ∈ grants, grant.provider = id) (hne : other ≠ id) :
    Grant.blocks other grants = [] := by
  apply List.filter_eq_nil_iff.2
  intro grant hmem
  simp [hgrants grant hmem, Ne.symm hne]

theorem exchange_setProvider (host : Host) (id : ProviderId) {f : Provider → Provider}
    {before after : List Grant} (hsystem : f .system = .system)
    (hreset : (f (host.provider id)).reset = (host.provider id).reset)
    (hbefore : ∀ grant ∈ before, grant.provider = id)
    (hafter : ∀ grant ∈ after, grant.provider = id)
    (hbalance : (host.provider id).counts →
      ((f (host.provider id)).liveBytes + heldBytes id before) % 2 ^ 64 =
          ((host.provider id).liveBytes + heldBytes id after) % 2 ^ 64 ∧
        ((f (host.provider id)).liveBlocks + heldBlocks id before) % 2 ^ 64 =
          ((host.provider id).liveBlocks + heldBlocks id after) % 2 ^ 64) :
    host.Exchange before (host.setProvider id (f (host.provider id))) after := by
  have hat := provider_setProvider host id hsystem
  refine ⟨?_, ?_, ?_⟩ <;> intro other <;> rw [hat] <;> by_cases ho : other = id
  · rw [if_pos ho, ho, hreset]
  · rw [if_neg ho]
  · rw [if_pos ho, ho]
    exact fun hc => (hbalance hc).1
  · rw [if_neg ho]
    simp [heldBytes, blocks_of_other hbefore ho, blocks_of_other hafter ho]
  · rw [if_pos ho, ho]
    exact fun hc => (hbalance hc).2
  · rw [if_neg ho]
    simp [heldBlocks, blocks_of_other hbefore ho, blocks_of_other hafter ho]

end Host

namespace Ledger

variable {ledger : Ledger} {size old new : UInt64} {answer : Unit} {error : Error}

theorem allocate_granted (h : (ledger.allocate size).1 = .ok answer) :
    (ledger.allocate size).2.liveBytes = ledger.liveBytes + size ∧
      (ledger.allocate size).2.liveBlocks = ledger.liveBlocks + 1 := by
  by_cases ha : ledger.admits size
  · simp [allocate, ha]
  · simp [allocate, ha] at h

theorem allocate_refused (h : (ledger.allocate size).1 = .error error) :
    (ledger.allocate size).2.liveBytes = ledger.liveBytes ∧
      (ledger.allocate size).2.liveBlocks = ledger.liveBlocks := by
  by_cases ha : ledger.admits size
  · simp [allocate, ha] at h
  · simp [allocate, ha]

theorem reallocate_granted (h : (ledger.reallocate old new).1 = .ok answer) :
    (ledger.reallocate old new).2.liveBytes = ledger.liveBytes + new - old ∧
      (ledger.reallocate old new).2.liveBlocks =
        if old = 0 then ledger.liveBlocks + 1 else ledger.liveBlocks := by
  by_cases hlt : old < new
  · by_cases ha : ledger.admits (new - old)
    · simp only [reallocate, hlt, ha, if_true, and_true]
      grind
    · simp [reallocate, hlt, ha] at h
  · simp only [reallocate, hlt, if_false, and_true]
    grind

theorem reallocate_refused (h : (ledger.reallocate old new).1 = .error error) :
    (ledger.reallocate old new).2.liveBytes = ledger.liveBytes ∧
      (ledger.reallocate old new).2.liveBlocks = ledger.liveBlocks := by
  by_cases hlt : old < new
  · by_cases ha : ledger.admits (new - old)
    · simp [reallocate, hlt, ha] at h
    · simp [reallocate, hlt, ha]
  · simp [reallocate, hlt] at h

end Ledger

namespace Provider

variable {provider : Provider} {size old new : UInt64} {answer : Unit} {error : Error}

theorem allocate_granted (h : (provider.allocate size).1 = .ok answer)
    (hc : provider.counts) :
    (provider.allocate size).2.liveBytes = (provider.liveBytes + size.toNat) % 2 ^ 64 ∧
      (provider.allocate size).2.liveBlocks = (provider.liveBlocks + 1) % 2 ^ 64 := by
  cases provider with
  | tracking ledger =>
    have hanswer : (ledger.allocate size).1 = .ok answer := h
    obtain ⟨hbytes, hblocks⟩ := Ledger.allocate_granted hanswer
    simp [allocate, liveBytes, liveBlocks, ledger?, hbytes, hblocks]
  | _ => cases hc

theorem allocate_refused (h : (provider.allocate size).1 = .error error) :
    (provider.allocate size).2.liveBytes = provider.liveBytes ∧
      (provider.allocate size).2.liveBlocks = provider.liveBlocks := by
  cases provider with
  | tracking ledger =>
    have hanswer : (ledger.allocate size).1 = .error error := h
    obtain ⟨hbytes, hblocks⟩ := Ledger.allocate_refused hanswer
    simp [allocate, liveBytes, liveBlocks, ledger?, hbytes, hblocks]
  | _ => cases h

theorem reallocate_granted (h : (provider.reallocate old new).1 = .ok answer)
    (hc : provider.counts) :
    ((provider.reallocate old new).2.liveBytes + old.toNat) % 2 ^ 64 =
        (provider.liveBytes + new.toNat) % 2 ^ 64 ∧
      (provider.reallocate old new).2.liveBlocks =
        (provider.liveBlocks + if old = 0 then 1 else 0) % 2 ^ 64 := by
  cases provider with
  | tracking ledger =>
    have hanswer : (ledger.reallocate old new).1 = .ok answer := h
    obtain ⟨hbytes, hblocks⟩ := Ledger.reallocate_granted hanswer
    have := old.toNat_lt
    have := ledger.liveBlocks.toNat_lt
    simp only [reallocate, liveBytes, liveBlocks, ledger?, hbytes, hblocks, Option.map_some,
      Option.getD_some, UInt64.toNat_sub, UInt64.toNat_add]
    refine ⟨by omega, ?_⟩
    split
    · simp
    · omega
  | _ => cases hc

theorem reallocate_refused (h : (provider.reallocate old new).1 = .error error) :
    (provider.reallocate old new).2.liveBytes = provider.liveBytes ∧
      (provider.reallocate old new).2.liveBlocks = provider.liveBlocks := by
  cases provider with
  | tracking ledger =>
    have hanswer : (ledger.reallocate old new).1 = .error error := h
    obtain ⟨hbytes, hblocks⟩ := Ledger.reallocate_refused hanswer
    simp [reallocate, liveBytes, liveBlocks, ledger?, hbytes, hblocks]
  | _ => cases h

theorem release_counters (size : UInt64) (hc : provider.counts) :
    ((provider.release size).liveBytes + size.toNat) % 2 ^ 64 = provider.liveBytes ∧
      ((provider.release size).liveBlocks + 1) % 2 ^ 64 = provider.liveBlocks := by
  cases provider with
  | tracking ledger =>
    have := size.toNat_lt
    have := ledger.liveBytes.toNat_lt
    have := ledger.liveBlocks.toNat_lt
    have hone : (1 : UInt64).toNat = 1 := rfl
    simp only [release, Ledger.release, liveBytes, liveBlocks, ledger?, Option.map_some,
      Option.getD_some, UInt64.toNat_sub, hone]
    omega
  | _ => cases hc

end Provider

namespace Grant

open Host

variable {host host' : Host} {id : ProviderId} {size count : UInt64} {grant grant' : Grant}
  {error : Error}

theorem allocate_ok (h : allocate host id size = (.ok grant, host')) :
    grant = { provider := id, size, held := true } ∧ host.Exchange [] host' [grant] := by
  unfold allocate Host.allocate at h
  dsimp only at h
  split at h
  · next hreq =>
    obtain ⟨hanswer, rfl⟩ := Prod.mk.inj hreq
    obtain ⟨hgrant, rfl⟩ := Prod.mk.inj h
    cases hgrant
    refine ⟨rfl, host.exchange_setProvider id (f := fun p => (p.allocate size).2) rfl
      (Provider.reset_allocate _ _) (by simp) (by simp) fun hc => ?_⟩
    obtain ⟨hbytes, hblocks⟩ := Provider.allocate_granted hanswer hc
    simp [heldBytes_singleton, heldBlocks_singleton, hbytes, hblocks]
  · cases h

theorem allocate_error (h : allocate host id size = (.error error, host')) :
    host.Exchange [] host' [] := by
  unfold allocate Host.allocate at h
  dsimp only at h
  split at h
  · cases h
  · next hreq =>
    obtain ⟨hanswer, rfl⟩ := Prod.mk.inj hreq
    obtain ⟨-, rfl⟩ := Prod.mk.inj h
    refine host.exchange_setProvider id (f := fun p => (p.allocate size).2) rfl
      (Provider.reset_allocate _ _) (by simp) (by simp) fun _ => ?_
    obtain ⟨hbytes, hblocks⟩ := Provider.allocate_refused hanswer
    simp [hbytes, hblocks]

theorem zeroed_of_lt (h : count.toNat * size.toNat < UInt64.size) :
    zeroed host id count size = allocate host id (count * size) := by
  unfold zeroed allocate Host.allocateZeroed Host.allocate Provider.allocateZeroed
  rw [if_pos h]

/-- Whether a grant has a size exactly where it has a block. Only then does the provider see a
fresh block where there is one. -/
def Settled (grant : Grant) : Prop := grant.size = 0 ↔ grant.held = false

theorem resize_ok (hsettled : grant.Settled)
    (h : grant.resize host size = (.ok grant', host')) :
    grant' = { grant with size, held := true } ∧ host.Exchange [grant] host' [grant'] := by
  unfold resize Host.reallocate at h
  dsimp only at h
  split at h
  · next hreq =>
    obtain ⟨hanswer, rfl⟩ := Prod.mk.inj hreq
    obtain ⟨hgrant, rfl⟩ := Prod.mk.inj h
    cases hgrant
    refine ⟨rfl, host.exchange_setProvider grant.provider
      (f := fun p => (p.reallocate grant.size size).2) rfl
      (Provider.reset_reallocate _ _ _) (by simp) (by simp) fun hc => ?_⟩
    obtain ⟨hbytes, hblocks⟩ := Provider.reallocate_granted hanswer hc
    simp only [heldBytes_singleton, heldBlocks_singleton, and_true, if_true]
    cases hheld : grant.held with
    | false =>
      have hzero : grant.size = 0 := hsettled.2 hheld
      simp_all
    | true =>
      have hsize : grant.size ≠ 0 := fun hz => by simp [hsettled.1 hz] at hheld
      simp_all
  · cases h

theorem resize_error (h : grant.resize host size = (.error error, host')) :
    host.Exchange [grant] host' [grant] := by
  unfold resize Host.reallocate at h
  dsimp only at h
  split at h
  · cases h
  · next hreq =>
    obtain ⟨hanswer, rfl⟩ := Prod.mk.inj hreq
    obtain ⟨-, rfl⟩ := Prod.mk.inj h
    refine host.exchange_setProvider grant.provider
      (f := fun p => (p.reallocate grant.size size).2) rfl
      (Provider.reset_reallocate _ _ _) (by simp) (by simp) fun _ => ?_
    obtain ⟨hbytes, hblocks⟩ := Provider.reallocate_refused hanswer
    simp [hbytes, hblocks]

theorem release_exchange (grant : Grant) (host : Host) :
    host.Exchange [grant] (grant.release host) [] := by
  unfold release
  split
  · next hheld =>
    refine host.exchange_setProvider grant.provider (f := (·.release grant.size)) rfl
      (Provider.reset_release _ _) (by simp) (by simp) fun hc => ?_
    obtain ⟨hbytes, hblocks⟩ := Provider.release_counters grant.size hc
    have := (host.provider grant.provider).liveBytes_lt
    have := (host.provider grant.provider).liveBlocks_lt
    simp only [heldBytes_singleton, heldBlocks_singleton, hheld, and_self, if_true,
      heldBytes_nil, heldBlocks_nil]
    omega
  · next hheld =>
    refine ⟨fun _ => rfl, ?_, ?_⟩ <;>
      simp [heldBytes_singleton, heldBlocks_singleton, hheld]

theorem releaseAll_exchange (grants : List Grant) (host : Host) :
    host.Exchange grants (releaseAll grants host) [] := by
  induction grants generalizing host with
  | nil => exact .refl host []
  | cons grant grants ih => exact ((grant.release_exchange host).frame grants).trans (ih _)

theorem allocate_of_neverRefuses (h : (host.provider id).NeverRefuses) (size : UInt64) :
    ∃ host', allocate host id size = (.ok { provider := id, size, held := true }, host') := by
  have hanswer := (h _ rfl).1 size
  simp [allocate, Host.allocate, hanswer]

theorem resize_of_neverRefuses (h : (host.provider grant.provider).NeverRefuses)
    (size : UInt64) :
    ∃ host', grant.resize host size = (.ok { grant with size, held := true }, host') := by
  have hanswer := (h _ rfl).2 grant.size size
  simp [resize, Host.reallocate, hanswer]

end Grant

namespace Payload

variable {α : Type} [Footprint α] {host host' : Host} {id : ProviderId} {value : α}

def paid (id : ProviderId) (value : α) : Payload α :=
  { value, grant := { provider := id, size := Footprint.cost value, held := true } }

theorem allocate_ok {payload : Payload α} (h : allocate host id value = (.ok payload, host')) :
    payload = paid id value ∧ host.Exchange [] host' [payload.grant] := by
  unfold allocate at h
  split at h
  · next hgrant =>
    obtain ⟨hpayload, rfl⟩ := Prod.mk.inj h
    cases hpayload
    obtain ⟨rfl, hexchange⟩ := Grant.allocate_ok hgrant
    exact ⟨rfl, hexchange⟩
  · cases h

theorem allocate_error {error : Error} (h : allocate host id value = (.error error, host')) :
    host.Exchange [] host' [] := by
  unfold allocate at h
  split at h
  · cases h
  · next hgrant =>
    obtain ⟨-, rfl⟩ := Prod.mk.inj h
    exact Grant.allocate_error hgrant

theorem allocate_of_neverRefuses (h : (host.provider id).NeverRefuses) (value : α) :
    ∃ host', allocate host id value = (.ok (paid id value), host') := by
  obtain ⟨host', hgrant⟩ := Grant.allocate_of_neverRefuses h (Footprint.cost value)
  exact ⟨host', by simp [allocate, hgrant, paid]⟩

end Payload

end Disassembly
