import Disassembly.Decode.Buffer
import Disassembly.Proofs.Decode.Flat
import Disassembly.Proofs.Memory.Exchange
/-!
# Staged records and the region

Whatever is staged and whatever has been moved, a buffer stands for one list. Its operations act
on that list, the grant of the region pays for exactly the records moved, and an operation that
fails leaves nothing behind.
-/
namespace Disassembly

theorem toNat_regionBytes {records : Nat} (hfits : records ≤ maxRecords) :
    (records.toUInt64 * recordBytes).toNat = 200 * records := by
  have hwords : records ≤ (2 ^ 63 - 1) / 200 := hfits
  have hbytes : recordBytes.toNat = 200 := rfl
  rw [UInt64.toNat_mul, hbytes, Nat.toUInt64_eq, UInt64.toNat_ofNat']
  omega

/-- A grant pays for a region of records: there is a block as soon as there is a record. -/
structure Grant.Pays (grant : Grant) (id : ProviderId) (records : Nat) : Prop where
  fits : records ≤ maxRecords
  provider : grant.provider = id
  size : grant.size = records.toUInt64 * recordBytes
  held : grant.held = true ↔ records ≠ 0

theorem Grant.Pays.toNat_size {grant : Grant} {id : ProviderId} {records : Nat}
    (h : grant.Pays id records) : grant.size.toNat = 200 * records :=
  h.size ▸ toNat_regionBytes h.fits

theorem Grant.Pays.settled {grant : Grant} {id : ProviderId} {records : Nat}
    (h : grant.Pays id records) : grant.Settled := by
  have hsize := h.toNat_size
  have hheld := h.held
  constructor
  · intro hzero
    have : records = 0 := by
      rw [hzero, UInt64.toNat_zero] at hsize
      omega
    simpa [this] using hheld
  · intro hfalse
    have : records = 0 := by simpa [hfalse] using hheld
    exact UInt64.toNat_inj.1 (by simp [hsize, this])

namespace Buffer

def Paid (id : ProviderId) (buffer : Buffer) : Prop := buffer.grant.Pays id buffer.region.length

/-- What can come of an operation on a buffer: another buffer, which holds the records that it is
to hold, or nothing at all. Where nothing is ever refused, only the size of the region sets a
limit. -/
inductive Outcome (id : ProviderId) (host : Host) (before : List Grant) (insns : List Insn) :
    Except Error Buffer × Host → Prop where
  | kept {buffer : Buffer} {host' : Host} : buffer.toList = insns → buffer.Paid id →
      host.Exchange before host' buffer.grants → Outcome id host before insns (.ok buffer, host')
  | lost {error : Error} {host' : Host} : host.Exchange before host' [] →
      ((host.provider id).NeverRefuses → error = .outOfMemory ∧ maxRecords < insns.length) →
      Outcome id host before insns (.error error, host')

variable {id : ProviderId} {host host' : Host} {buffer buffer' : Buffer} {insn : Insn}
  {insns : List Insn} {a b : List Grant}

theorem Outcome.after {result : Except Error Buffer × Host} (h : host.Exchange a host' b)
    (k : Outcome id host' b insns result) : Outcome id host a insns result := by
  cases k with
  | kept hlist hpaid hexchange => exact .kept hlist hpaid (h.trans hexchange)
  | lost hexchange hfree => exact .lost (h.trans hexchange) fun hn => hfree (h.neverRefuses hn)

@[simp] theorem toList_empty : (empty id).toList = [] := rfl

theorem paid_empty : (empty id).Paid id :=
  ⟨Nat.zero_le _, rfl, rfl, by simp [empty, Grant.empty]⟩

theorem last_eq (buffer : Buffer) : buffer.last = buffer.toList.getLast? :=
  List.getLast?_append.symm

@[simp] theorem toList_stage (buffer : Buffer) (insn : Insn) :
    (buffer.stage insn).toList = buffer.toList ++ [insn] := by
  simp [stage, toList]

theorem grants_stage (buffer : Buffer) (insn : Insn) :
    (insn.grants ++ buffer.grants).Perm (buffer.stage insn).grants := by
  simp only [grants, toList_stage, Insn.allGrants_append, Insn.allGrants_singleton,
    List.append_assoc]
  exact List.perm_append_comm_assoc _ _ _

theorem toList_setLast (h : buffer.toList ≠ []) (insn : Insn) :
    (buffer.setLast insn).toList = buffer.toList.dropLast ++ [insn] := by
  obtain ⟨staging, region, grant⟩ := buffer
  rcases List.eq_nil_or_concat staging with rfl | ⟨init, last, rfl⟩
  · have hregion : region ≠ [] := by simpa [toList] using h
    simp [setLast, toList, hregion]
  · simp [setLast, toList, ← List.append_assoc]

theorem paid_setLast (h : buffer.Paid id) (insn : Insn) : (buffer.setLast insn).Paid id := by
  unfold setLast
  split
  · split
    · exact h
    · next hregion =>
      have hpos : 0 < buffer.region.length := List.length_pos_iff.2 (by simpa using hregion)
      have hlength : (buffer.region.dropLast ++ [insn]).length = buffer.region.length := by
        simp only [List.length_append, List.length_dropLast, List.length_singleton]
        omega
      simpa only [Paid, hlength] using h
  · exact h

theorem grant_setLast (buffer : Buffer) (insn : Insn) :
    (buffer.setLast insn).grant = buffer.grant := by
  unfold setLast
  split
  · split <;> rfl
  · rfl

theorem toList_withLast {last : Option Insn} (h : last.isSome = buffer.last.isSome) :
    (buffer.withLast last).toList = Insn.withLast buffer.toList last := by
  cases last with
  | none => rfl
  | some last =>
    apply toList_setLast
    intro hnil
    rw [last_eq, hnil] at h
    cases h

theorem paid_withLast (h : buffer.Paid id) (last : Option Insn) :
    (buffer.withLast last).Paid id := by
  cases last with
  | none => exact h
  | some last => exact paid_setLast h last

theorem grant_withLast (buffer : Buffer) (last : Option Insn) :
    (buffer.withLast last).grant = buffer.grant := by
  cases last with
  | none => rfl
  | some last => exact buffer.grant_setLast last

theorem length_withLast (buffer : Buffer) (last : Option Insn) :
    (buffer.withLast last).staging.length = buffer.staging.length ∧
      (buffer.withLast last).region.length = buffer.region.length := by
  cases last with
  | none => exact ⟨rfl, rfl⟩
  | some last =>
    obtain ⟨staging, region, grant⟩ := buffer
    rcases List.eq_nil_or_concat staging with rfl | ⟨init, staged, rfl⟩
    · rcases List.eq_nil_or_concat region with rfl | ⟨init, moved, rfl⟩
      · exact ⟨rfl, rfl⟩
      · simp [withLast, setLast]
    · simp [withLast, setLast]

theorem drop_exchange (buffer : Buffer) (host : Host) :
    host.Exchange buffer.grants (buffer.drop host) [] := Grant.releaseAll_exchange _ host

theorem pays_grown (h : buffer.Paid id) (hstaging : buffer.staging ≠ [])
    (hfits : ¬ maxRecords < (buffer.region ++ buffer.staging).length) :
    ({ buffer.grant with
        size := buffer.grant.size + buffer.staging.length.toUInt64 * recordBytes
        held := true } : Grant).Pays id (buffer.region ++ buffer.staging).length := by
  have hpos : 0 < buffer.staging.length := List.length_pos_iff.2 hstaging
  refine ⟨Nat.le_of_not_lt hfits, h.provider, ?_, ?_⟩
  · simp only [h.size, List.length_append, Nat.toUInt64_eq, UInt64.ofNat_add, UInt64.add_mul]
  · simp only [List.length_append, true_iff]
    omega

theorem flush_outcome (h : buffer.Paid id) (host : Host) :
    Outcome id host buffer.grants buffer.toList (buffer.flush host) := by
  unfold flush
  split
  · exact .kept rfl h (.refl host _)
  · next hstaging =>
    dsimp only
    have hdrop : ∀ {host' : Host} {grant : Grant}, host.Exchange [buffer.grant] host' [grant] →
        host.Exchange buffer.grants host' (Insn.allGrants buffer.toList ++ [grant]) := by
      intro host' grant hresize
      exact (hresize.frame _).perm List.perm_append_comm List.perm_append_comm
    split
    · next hresize =>
      have hexchange := Grant.resize_error hresize
      apply Outcome.lost ((hdrop hexchange).trans (buffer.drop_exchange _))
      intro hfree
      -- Where nothing is refused this refusal cannot have been one.
      obtain ⟨host', hgranted⟩ := Grant.resize_of_neverRefuses (h.provider.symm ▸ hfree)
        (buffer.grant.size + buffer.staging.length.toUInt64 * recordBytes)
      rw [hgranted] at hresize
      cases hresize
    · next grant host' hresize =>
      obtain ⟨rfl, hexchange⟩ := Grant.resize_ok h.settled hresize
      split
      · next hlong =>
        refine .lost ((hdrop hexchange).trans ?_) fun _ => ⟨rfl, hlong⟩
        exact Grant.releaseAll_exchange _ _
      · next hfits =>
        refine .kept (List.append_nil _) ?_ ?_
        · exact pays_grown h (by simpa using hstaging) hfits
        · simpa [grants, toList] using (hdrop hexchange).note _

theorem staging_of_flush (h : buffer.flush host = (.ok buffer', host')) : buffer'.staging = [] := by
  unfold flush at h
  split at h
  · next hempty =>
    cases h
    simpa using hempty
  · dsimp only at h
    split at h
    · cases h
    · split at h
      · cases h
      · cases h
        rfl

theorem push_outcome (h : buffer.Paid id) (insn : Insn) (host : Host) :
    Outcome id host (insn.grants ++ buffer.grants) (buffer.toList ++ [insn])
      (buffer.push insn host) := by
  have hstage : host.Exchange (insn.grants ++ buffer.grants) host (buffer.stage insn).grants :=
    (Host.Exchange.refl host _).perm (buffer.grants_stage insn) (.refl _)
  have hpaid : (buffer.stage insn).Paid id := h
  unfold push
  dsimp only
  split
  · exact (toList_stage buffer insn ▸ flush_outcome hpaid host).after hstage
  · exact .kept (toList_stage buffer insn) hpaid hstage

end Buffer

def regionOf (insns : List Insn) : Except Error (List Insn) :=
  if insns.length ≤ maxRecords then .ok insns else .error .outOfMemory

theorem length_of_regionOf {insns other : List Insn} (h : regionOf insns = .ok other) :
    insns.length ≤ maxRecords := by
  by_cases hfits : insns.length ≤ maxRecords
  · exact hfits
  · rw [regionOf, if_neg hfits] at h
    cases h

namespace Instructions

def Paid (id : ProviderId) (instructions : Instructions) : Prop :=
  instructions.grant.Pays id instructions.insns.length

end Instructions

namespace Buffer

inductive Finished (id : ProviderId) (host : Host) (before : List Grant) (insns : List Insn) :
    Except Error Instructions × Host → Prop where
  | all {grant : Grant} {host' : Host} : Instructions.Paid id { insns, grant } →
      host.Exchange before host' ({ insns, grant } : Instructions).grants →
      Finished id host before insns (.ok { insns, grant }, host')
  | nothing {error : Error} {host' : Host} : host.Exchange before host' [] →
      ((host.provider id).NeverRefuses → error = .outOfMemory ∧ maxRecords < insns.length) →
      Finished id host before insns (.error error, host')

theorem finish_finished {id : ProviderId} {buffer : Buffer} (h : buffer.Paid id) (host : Host) :
    Finished id host buffer.grants buffer.toList (buffer.finish host) := by
  have houtcome := flush_outcome h host
  unfold finish
  cases hflush : buffer.flush host with
  | mk result host' =>
    rw [hflush] at houtcome
    cases houtcome with
    | lost hlost hfree => exact .nothing hlost hfree
    | @kept buffer' _ hlist hpaid hkept =>
      have hregion : buffer'.region = buffer.toList := by
        rw [← hlist, toList, staging_of_flush hflush, List.append_nil]
      dsimp only
      rw [hregion]
      refine .all ?_ ?_
      · simpa only [Instructions.Paid, Paid, hregion] using hpaid
      · simpa only [Instructions.grants, grants, hlist] using hkept

end Buffer

end Disassembly
