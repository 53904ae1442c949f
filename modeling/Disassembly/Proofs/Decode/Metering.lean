import Disassembly.Proofs.Decode.Dynamic
import Disassembly.Proofs.Family.Combiners
import Disassembly.Proofs.Memory.Limit
/-!
# What a dynamic decode asks for

Without detail the region is all that a dynamic decode requests. It grows by whole chunks and by
what is left over at the end, each time with one call, and no record that is folded is ever paid
for. Under a limit the decode goes through just where the records that it returns fit in with what
was held before.
-/
namespace Disassembly

namespace Ledger

variable {start : Ledger} {limit : UInt64} {moved staged n m : Nat}

/-- The books once a region has grown to a number of records, a chunk at a time. -/
def grown (start : Ledger) (records : Nat) : Ledger where
  policy := start.policy
  liveBytes := start.liveBytes + records.toUInt64 * recordBytes
  liveBlocks := if records = 0 then start.liveBlocks else start.liveBlocks + 1
  calls := start.calls + (records + (chunkSize - 1)) / chunkSize

/-- Whether a region of so many records fits in with what is held. -/
def HasRoom (start : Ledger) (limit : UInt64) (records : Nat) : Prop :=
  records = 0 ∨ start.liveBytes.toNat + 200 * records ≤ limit.toNat

structure Exact (start : Ledger) (limit : UInt64) (records : Nat) : Prop where
  fits : records ≤ maxRecords
  uncapped : limit.toNat < 2 ^ 64 - 1 ∨ start.liveBytes.toNat + 200 * records < 2 ^ 64

theorem Exact.mono (hle : m ≤ n) (h : start.Exact limit n) : start.Exact limit m := by
  obtain ⟨hfits, huncapped⟩ := h
  exact ⟨by omega, by omega⟩

theorem HasRoom.mono (hle : m ≤ n) (h : start.HasRoom limit n) : start.HasRoom limit m := by
  rcases h with rfl | hroom
  · exact .inl (Nat.le_zero.1 hle)
  · exact .inr (by omega)

theorem grown_zero (start : Ledger) : start.grown 0 = start := by
  simp [grown, chunkSize]

theorem toNat_liveBytes_grown (hheld : start.liveBytes.toNat ≤ limit.toNat)
    (hfits : n ≤ maxRecords) (hroom : start.HasRoom limit n) :
    (start.grown n).liveBytes.toNat = start.liveBytes.toNat + 200 * n := by
  have hlimit := limit.toNat_lt
  have hbytes := toNat_regionBytes hfits
  rw [grown, UInt64.toNat_add, hbytes]
  apply Nat.mod_eq_of_lt
  rcases hroom with rfl | hroom <;> omega

theorem reallocate_grow {ledger : Ledger} {old extra : UInt64} (hgrows : old < old + extra) :
    ledger.reallocate old (old + extra) =
      if ledger.admits extra then
        (.ok (), { ledger with
          liveBytes := ledger.liveBytes + extra
          liveBlocks := if old = 0 then ledger.liveBlocks + 1 else ledger.liveBlocks
          calls := ledger.calls + 1 })
      else (.error .outOfMemory, { ledger with calls := ledger.calls + 1 }) := by
  have hextra : old + extra - old = extra := by
    rw [UInt64.add_comm, UInt64.add_sub_cancel]
  rw [reallocate, if_pos hgrows, hextra]

theorem grown_add (hfits : moved ≤ maxRecords) (hwhole : chunkSize ∣ moved) (hpos : 0 < staged)
    (hchunk : staged ≤ chunkSize) :
    start.grown (moved + staged) =
      { start.grown moved with
        liveBytes := (start.grown moved).liveBytes + staged.toUInt64 * recordBytes
        liveBlocks := if moved.toUInt64 * recordBytes = 0 then (start.grown moved).liveBlocks + 1
          else (start.grown moved).liveBlocks
        calls := (start.grown moved).calls + 1 } := by
  obtain ⟨chunks, rfl⟩ := hwhole
  have hempty : (chunkSize * chunks).toUInt64 * recordBytes = 0 ↔ chunkSize * chunks = 0 := by
    rw [← UInt64.toNat_inj, toNat_regionBytes hfits, UInt64.toNat_zero]
    omega
  have hsize : chunkSize = 64 := rfl
  simp only [grown, hempty]
  congr 1
  · simp only [Nat.toUInt64_eq, UInt64.ofNat_add, UInt64.add_mul, UInt64.add_assoc]
  · rw [if_neg (by omega)]
    by_cases hzero : chunkSize * chunks = 0
    · rw [if_pos hzero, if_pos hzero]
    · rw [if_neg hzero, if_neg hzero]
  · -- One call more, because all calls before were for chunks that were full.
    rw [hsize] at hchunk ⊢
    omega

theorem reallocate_grown (hpolicy : start.policy = .limit limit)
    (hheld : start.liveBytes.toNat ≤ limit.toNat) (hexact : start.Exact limit (moved + staged))
    (hroom : start.HasRoom limit moved) (hwhole : chunkSize ∣ moved) (hpos : 0 < staged)
    (hchunk : staged ≤ chunkSize) :
    let old := moved.toUInt64 * recordBytes
    let answer := (start.grown moved).reallocate old (old + staged.toUInt64 * recordBytes)
    (start.HasRoom limit (moved + staged) → answer = (.ok (), start.grown (moved + staged))) ∧
      (¬ start.HasRoom limit (moved + staged) → answer.1 = .error .outOfMemory) := by
  intro old answer
  obtain ⟨hfits, hcap⟩ := hexact
  have hold : old.toNat = 200 * moved := toNat_regionBytes (by omega)
  have hextra : (staged.toUInt64 * recordBytes).toNat = 200 * staged :=
    toNat_regionBytes (by omega)
  have hlive := toNat_liveBytes_grown hheld (by omega) hroom
  have hgrows : old < old + staged.toUInt64 * recordBytes := by
    have hword : moved + staged ≤ (2 ^ 63 - 1) / 200 := hfits
    rw [UInt64.lt_iff_toNat_lt, UInt64.toNat_add, hold, hextra, Nat.mod_eq_of_lt (by omega)]
    omega
  have hadmits := @admits_iff (start.grown moved) limit (staged.toUInt64 * recordBytes) hpolicy
    (by omega)
  have hanswer : answer = _ := reallocate_grow hgrows
  rw [hlive, hextra] at hadmits
  rw [hanswer]
  constructor
  · intro hmore
    have hfit : start.liveBytes.toNat + 200 * (moved + staged) ≤ limit.toNat := by
      rcases hmore with hzero | hfit
      · omega
      · exact hfit
    rw [if_pos (hadmits.2 (by omega)), grown_add (by omega) hwhole hpos hchunk]
  · intro hmore
    rw [if_neg]
    intro hadmitted
    have hfit := hadmits.1 hadmitted
    exact hmore (.inr (by omega))

end Ledger

namespace Buffer

variable {start : Ledger} {limit : UInt64} {id : ProviderId} {buffer : Buffer} {host : Host}
  {insn : Insn} {last : Option Insn}

/-- A region that was grown by whole chunks, for records without payloads. -/
structure Metered (start : Ledger) (limit : UInt64) (id : ProviderId) (buffer : Buffer)
    (host : Host) : Prop where
  paid : buffer.Paid id
  bare : Insn.allGrants buffer.toList = []
  whole : chunkSize ∣ buffer.region.length
  ledger : host.provider id = .tracking (start.grown buffer.region.length)
  room : start.HasRoom limit buffer.region.length

inductive Flushed (start : Ledger) (limit : UInt64) (id : ProviderId) (insns : List Insn) :
    Except Error Buffer × Host → Prop where
  | moved {grant : Grant} {host : Host} : grant.Pays id insns.length →
      host.provider id = .tracking (start.grown insns.length) →
      start.HasRoom limit insns.length →
      Flushed start limit id insns (.ok { staging := [], region := insns, grant }, host)
  | refused {error : Error} {host : Host} : ¬ start.HasRoom limit insns.length →
      Flushed start limit id insns (.error error, host)

inductive Stepped (start : Ledger) (limit : UInt64) (id : ProviderId) (insns : List Insn) :
    Except Error Buffer × Host → Prop where
  | kept {buffer : Buffer} {host : Host} : buffer.toList = insns →
      buffer.Metered start limit id host → buffer.staging.length < chunkSize →
      Stepped start limit id insns (.ok buffer, host)
  | refused {error : Error} {host : Host} : ¬ start.HasRoom limit insns.length →
      Stepped start limit id insns (.error error, host)

theorem metered_empty (hledger : host.provider id = .tracking start) :
    (empty id).Metered start limit id host := by
  refine ⟨paid_empty, rfl, Nat.dvd_zero _, ?_, .inl rfl⟩
  rw [hledger]
  exact congrArg Provider.tracking start.grown_zero.symm

theorem Metered.note (h : buffer.Metered start limit id host) (event : LogEvent) :
    buffer.Metered start limit id (host.note event) := ⟨h.paid, h.bare, h.whole, h.ledger, h.room⟩

theorem Metered.sameHand {writer : Provider} (h : buffer.Metered start limit id host)
    (hwriter : (Provider.tracking start).SameHand writer) :
    (host.provider id).SameHand writer := by
  rw [h.ledger]
  exact hwriter

theorem Metered.stage (h : buffer.Metered start limit id host) (hinsn : insn.grants = []) :
    (buffer.stage insn).Metered start limit id host := by
  refine ⟨h.paid, ?_, h.whole, h.ledger, h.room⟩
  rw [toList_stage, Insn.allGrants_append, h.bare, Insn.allGrants_singleton, hinsn, List.nil_append]

theorem Metered.withLast (h : buffer.Metered start limit id host)
    (hbare : Insn.allGrants (buffer.withLast last).toList = []) :
    (buffer.withLast last).Metered start limit id host := by
  have hlength := (buffer.length_withLast last).2
  refine ⟨paid_withLast h.paid last, hbare, ?_, ?_, ?_⟩ <;> rw [hlength]
  · exact h.whole
  · exact h.ledger
  · exact h.room

section Requests

variable (hpolicy : start.policy = .limit limit) (hheld : start.liveBytes.toNat ≤ limit.toNat)
include hpolicy hheld

theorem Metered.flush (h : buffer.Metered start limit id host)
    (hstaged : buffer.staging.length ≤ chunkSize)
    (hexact : start.Exact limit buffer.toList.length) :
    Flushed start limit id buffer.toList (buffer.flush host) := by
  have hlength : buffer.toList.length = buffer.region.length + buffer.staging.length :=
    List.length_append
  by_cases hnone : buffer.staging = []
  · obtain ⟨staging, region, grant⟩ := buffer
    dsimp only at hnone
    subst hnone
    have hall : ({ staging := [], region, grant } : Buffer).toList = region := List.append_nil _
    rw [hall]
    exact .moved h.paid h.ledger h.room
  · have hpos : 0 < buffer.staging.length := List.length_pos_iff.2 hnone
    have hfits : ¬ maxRecords < (buffer.region ++ buffer.staging).length :=
      Nat.not_lt.2 hexact.fits
    obtain ⟨hgranted, hrefused⟩ := Ledger.reallocate_grown hpolicy hheld (hlength ▸ hexact) h.room
      h.whole hpos hstaged
    obtain ⟨host', hprovider, hresize⟩ := Grant.resize_tracking h.paid.provider h.ledger
      (buffer.grant.size + buffer.staging.length.toUInt64 * recordBytes)
    rw [← h.paid.size, ← hlength] at hgranted hrefused
    rw [Buffer.flush, if_neg (by simpa using hnone)]
    dsimp only
    rw [hresize]
    by_cases hroom : start.HasRoom limit buffer.toList.length
    · rw [hgranted hroom] at hprovider ⊢
      dsimp only [Except.map]
      rw [if_neg hfits]
      exact .moved (pays_grown h.paid hnone hfits) hprovider hroom
    · rw [hrefused hroom]
      exact .refused hroom

theorem Metered.push (h : buffer.Metered start limit id host)
    (hstaged : buffer.staging.length < chunkSize) (hinsn : insn.grants = [])
    (hexact : start.Exact limit (buffer.toList ++ [insn]).length) :
    Stepped start limit id (buffer.toList ++ [insn]) (buffer.push insn host) := by
  have hall := toList_stage buffer insn
  have hstage := h.stage hinsn
  have hone : (buffer.stage insn).staging.length = buffer.staging.length + 1 :=
    List.length_append
  rw [Buffer.push]
  -- Only a full chunk is moved; until then no call is made.
  by_cases hfull : (buffer.stage insn).staging.length = chunkSize
  · have hflushed := hstage.flush hpolicy hheld (Nat.le_of_eq hfull) (hall ▸ hexact)
    rw [if_pos hfull]
    rw [hall] at hflushed
    cases hflush : (buffer.stage insn).flush host with
    | mk result host' =>
      rw [hflush] at hflushed
      cases hflushed with
      | refused hroom => exact .refused hroom
      | moved hpays hledger hroom =>
        have hlist : buffer.toList ++ [insn] ++ [] = buffer.toList ++ [insn] := List.append_nil _
        refine .kept hlist ⟨hpays, ?_, ?_, hledger, hroom⟩ (Nat.two_pow_pos 6)
        · rw [toList, hlist, ← hall]
          exact hstage.bare
        · have hmoved : (buffer.toList ++ [insn]).length = buffer.region.length + chunkSize := by
            rw [← hall, ← hfull]
            exact List.length_append
          rw [hmoved]
          exact Nat.dvd_add h.whole (Nat.dvd_refl _)
  · rw [if_neg hfull]
    exact .kept hall hstage (by omega)

end Requests

end Buffer

/-- What is there after a turn is not more than what is returned in the end. -/
theorem Backend.length_offerTo_le_offerUpTo (backend : Backend) (count : Nat) (insns : List Insn)
    (insn : Insn) (rest : List Insn) :
    (backend.offerTo insns insn).length ≤
      (backend.offerUpTo count insns (insn :: rest)).length := by
  rw [offerUpTo]
  by_cases hfull : 0 < count ∧ (backend.offerTo insns insn).length = count
  · exact Nat.le_of_eq (congrArg List.length (if_pos hfull).symm)
  · rw [if_neg hfull]
    exact backend.length_le_offerUpTo count _ rest

namespace Session

open Buffer (Stepped)

variable {session : Session} {start : Ledger} {limit : UInt64} {host : Host} {code : List UInt8}
  {address : UInt64} {buffer : Buffer} {insn : Insn} {decoded : Decoded} {count : Nat}

theorem grants_record (hdetail : session.detail = false) (writer : Provider) (code : List UInt8)
    (decoded : Decoded) : (session.record writer code decoded).grants = [] := by
  rw [record, Insn.grants_ofDecoded, payloadOf, hdetail]
  rfl

theorem next_of_detail_off {writer : Provider} (hdetail : session.detail = false)
    (hwriter : (host.provider session.provider).SameHand writer)
    (hhead : session.decodeHead code address = some decoded) :
    let insn := session.record writer code decoded
    session.next host code address =
      (.ok (some insn), host.note (.decoded insn.address insn.display)) := by
  intro insn
  have hpayload : session.payloadOf decoded = none := by
    rw [payloadOf, hdetail]
    rfl
  have hrequest : decoded.requestPayload host session.provider session.detail =
      (.ok (session.payloadOf decoded), host) := by
    rw [hpayload, Decoded.requestPayload, hdetail]
    rfl
  have hinsn : insn = session.record (host.provider session.provider) code decoded :=
    (record_sameHand hwriter decoded).symm
  simp only [next, hhead, hrequest, hinsn]
  rfl

section Requests

variable (hpolicy : start.policy = .limit limit) (hheld : start.liveBytes.toNat ≤ limit.toNat)
include hpolicy hheld

theorem append_stepped (h : buffer.Metered start limit session.provider host)
    (hstaged : buffer.staging.length < chunkSize) (hinsn : insn.grants = [])
    (hexact : start.Exact limit (session.backend.offerTo buffer.toList insn).length)
    (address : UInt64) (produced : Nat) :
    Stepped start limit session.provider (session.backend.offerTo buffer.toList insn)
      ((session.append host buffer insn address produced).1.map Prod.fst,
        (session.append host buffer insn address produced).2) := by
  have hperm := session.backend.grants_withLast_combine buffer.toList insn
  have hsome := session.backend.isSome_combine insn buffer.last
  rw [hinsn, h.bare] at hperm
  rw [Backend.offerTo] at hexact ⊢
  rw [append]
  rw [buffer.last_eq] at hsome ⊢
  generalize session.backend.combine insn buffer.toList.getLast? = offer at hperm hsome hexact ⊢
  rw [← Buffer.last_eq] at hsome
  -- Neither record held a block, and so nothing is dropped and nothing is held afterwards.
  obtain ⟨hdropped, hkept⟩ := List.append_eq_nil_iff.1 hperm.symm.eq_nil
  obtain ⟨hoffered, hbare⟩ := List.append_eq_nil_iff.1 hkept
  rw [← Buffer.toList_withLast hsome] at hbare hexact ⊢
  have hmetered := h.withLast hbare
  have hstill := (buffer.length_withLast offer.last).1.symm ▸ hstaged
  rw [hdropped]
  by_cases hfolded : offer.folded = true
  · rw [if_pos hfolded, if_pos hfolded, hoffered]
    exact .kept rfl (hmetered.note _) hstill
  · rw [if_neg hfolded] at hexact
    rw [if_neg hfolded, if_neg hfolded]
    have hpush := hmetered.push hpolicy hheld hstill hoffered hexact
    dsimp only [Grant.releaseAll, List.foldl_nil]
    cases hresult : (buffer.withLast offer.last).push offer.insn host with
    | mk result pushed =>
      rw [hresult] at hpush
      cases result with
      | ok buffer => exact hpush
      | error error => exact hpush

/-- The loop is refused a chunk only where the records that it is to return have no room. -/
theorem sweep_stepped (hkeep : session.backend.KeepsSize) (hdetail : session.detail = false)
    {writer : Provider} (hwriter : (Provider.tracking start).SameHand writer) (count : Nat)
    (host : Host) (code : List UInt8) (address : UInt64) (buffer : Buffer)
    (h : buffer.Metered start limit session.provider host)
    (hstaged : buffer.staging.length < chunkSize)
    (hexact : start.Exact limit (session.backend.offerUpTo count buffer.toList
      (session.records writer code address)).length) :
    Stepped start limit session.provider
      (session.backend.offerUpTo count buffer.toList (session.records writer code address))
      (session.sweep host code address count buffer buffer.toList.length) := by
  induction code, address using session.decode_induction generalizing host buffer with
  | stop code address hhead =>
    rw [sweep_stop hhead, records_of_none hhead]
    exact .kept rfl h hstaged
  | step code address decoded hhead ih =>
    have hcode := (decodeHead_bounds hhead).2.2
    have hnext := next_of_detail_off hdetail (h.sameHand hwriter) hhead
    have hsame : (session.record writer code decoded).size = decoded.size :=
      size_record hkeep decoded
    have hbare := grants_record hdetail writer code decoded
    rw [records_of_some hhead, Backend.offerUpTo] at hexact ⊢
    generalize session.record writer code decoded = insn at hnext hsame hbare hexact ⊢
    dsimp only at hnext hexact ⊢
    have hsize : insn.size ≠ 0 := by
      rw [hsame]
      exact (decodeHead_bounds hhead).1
    have hmetered := h.note (.decoded insn.address insn.display)
    have hle := session.backend.length_offerTo_le_offerUpTo count buffer.toList insn
      (session.records writer (code.drop decoded.size.toNat) (address + decoded.size.toUInt64))
    -- One lemma says what the turn makes of the list, the other what it costs.
    obtain ⟨⟨result, host'⟩, happend, -⟩ :=
      append_outcome hmetered.paid (host.note (.decoded insn.address insn.display)) insn address
    have hstepped := append_stepped hpolicy hheld hmetered hstaged hbare (hexact.mono hle) address
      buffer.toList.length
    rw [happend] at hstepped
    cases result with
    | error error =>
      rw [sweep_lost hcode hnext happend]
      cases hstepped with
      | refused hroom => exact .refused fun hall => hroom (hall.mono hle)
    | ok buffer' =>
      rw [sweep_kept hcode hsize hnext happend, hsame]
      cases hstepped with
      | kept hlist hkept hstill =>
        rw [← hlist] at hexact ⊢
        by_cases hfull : 0 < count ∧ buffer'.toList.length = count
        · rw [if_pos hfull, if_pos hfull]
          exact .kept rfl hkept hstill
        · rw [if_neg hfull] at hexact
          rw [if_neg hfull, if_neg hfull]
          exact ih host' buffer' hkept hstill hexact

inductive Billed (start : Ledger) (limit : UInt64) (id : ProviderId) (insns : List Insn) :
    Except Error Instructions × Host → Prop where
  | all {grant : Grant} {host : Host} : grant.Pays id insns.length →
      host.provider id = .tracking (start.grown insns.length) →
      start.HasRoom limit insns.length →
      Billed start limit id insns (.ok { insns, grant }, host)
  | refused {error : Error} {host : Host} : ¬ start.HasRoom limit insns.length →
      Billed start limit id insns (.error error, host)

theorem collect_billed (hkeep : session.backend.KeepsSize) (hdetail : session.detail = false)
    {writer : Provider} (hwriter : (Provider.tracking start).SameHand writer)
    (hledger : host.provider session.provider = .tracking start)
    (hexact : start.Exact limit (session.backend.offerUpTo count []
      (session.records writer code address)).length) :
    Billed start limit session.provider
      (session.backend.offerUpTo count [] (session.records writer code address))
      (session.collect host code address count) := by
  have hswept := sweep_stepped hpolicy hheld hkeep hdetail hwriter count host code address
    (.empty session.provider) (Buffer.metered_empty hledger) (Nat.two_pow_pos 6) hexact
  rw [Buffer.toList_empty] at hswept
  generalize session.backend.offerUpTo count [] (session.records writer code address) = insns
    at hexact hswept ⊢
  rw [collect]
  cases hsweep : session.sweep host code address count (.empty session.provider) 0 with
  | mk result host' =>
    rw [List.length_nil, hsweep] at hswept
    cases hswept with
    | refused hroom => exact .refused hroom
    | @kept buffer _ hlist hmetered hstaged =>
      subst hlist
      have hflushed := hmetered.flush hpolicy hheld (Nat.le_of_lt hstaged) hexact
      dsimp only
      rw [Buffer.finish]
      cases hflush : buffer.flush host' with
      | mk result host'' =>
        rw [hflush] at hflushed
        cases hflushed with
        | refused hroom => exact .refused hroom
        | moved hpays hledger hroom => exact .all hpays hledger hroom

theorem disasmAll_billed (hkeep : session.backend.KeepsSize) (hdetail : session.detail = false)
    {writer : Provider} (hwriter : (Provider.tracking start).SameHand writer)
    (hledger : host.provider session.provider = .tracking start)
    (hexact : start.Exact limit (session.backend.offerUpTo count []
      (session.records writer code address)).length) :
    Billed start limit session.provider
      (session.backend.offerUpTo count [] (session.records writer code address))
      ((session.disasmAll host code address count).1,
        (session.disasmAll host code address count).2.2) := by
  have hbilled := collect_billed hpolicy hheld hkeep hdetail hwriter hledger hexact
  rw [disasmAll]
  cases hcollect : session.collect host code address count with
  | mk result host' =>
    rw [hcollect] at hbilled
    cases hbilled with
    | refused hroom => exact .refused hroom
    | all hpays hledger hroom => exact .all hpays hledger hroom

end Requests

/-- With detail off a dynamic decode goes through just where the records that are returned without
a limit fit in with what is held, 200 bytes for each of them. It then returns these, in one region
of exactly their size, which took a call for each chunk and for what was left over. -/
theorem disasmAll_ok_iff_room {free : Host} {held : Ledger}
    (hkeep : session.backend.KeepsSize) (hdetail : session.detail = false)
    (hledger : host.provider session.provider = .tracking held)
    (hpolicy : held.policy = .limit limit) (hheld : held.liveBytes.toNat ≤ limit.toNat)
    (hfree : (free.provider session.provider).NeverRefuses)
    (hwriter : (host.provider session.provider).SameHand (free.provider session.provider))
    (code : List UInt8) (address : UInt64) (count : Nat) :
    (code.length ≤ maxRecords →
      ∃ all, (session.disasmAll free code address count).1 = .ok all) ∧
    ∀ all, (session.disasmAll free code address count).1 = .ok all →
      (limit.toNat < 2 ^ 64 - 1 ∨ held.liveBytes.toNat + 200 * all.insns.length < 2 ^ 64) →
      ((∃ instructions, (session.disasmAll host code address count).1 = .ok instructions) ↔
        all.insns.length = 0 ∨
          held.liveBytes.toNat + 200 * all.insns.length ≤ limit.toNat) ∧
      ∀ instructions, (session.disasmAll host code address count).1 = .ok instructions →
        instructions.insns = all.insns ∧
        instructions.allocatedBytes.toNat = 200 * all.insns.length ∧
        ∃ after, (session.disasmAll host code address count).2.2.provider session.provider =
            .tracking after ∧
          after.liveBytes.toNat = held.liveBytes.toNat + 200 * all.insns.length ∧
          after.liveBlocks = held.liveBlocks + (if all.insns.length = 0 then 0 else 1) ∧
          after.calls = held.calls + (all.insns.length + 63) / 64 := by
  refine ⟨exists_disasmAll hkeep hfree, ?_⟩
  intro all hall huncapped
  have hinsns := insns_of_returned hkeep hall
  have hfits : all.insns.length ≤ maxRecords := by
    have hregion := insns_of_neverRefuses hkeep hfree code address count
    rw [hall, ← hinsns] at hregion
    exact length_of_regionOf hregion.symm
  have hexact : held.Exact limit (session.backend.offerUpTo count []
      (session.records (free.provider session.provider) code address)).length := by
    rw [← hinsns]
    exact ⟨hfits, huncapped⟩
  rw [hledger] at hwriter
  -- What the limited provider is billed for are the records that the free one returns.
  have hbilled := disasmAll_billed hpolicy hheld hkeep hdetail hwriter hledger hexact
  rw [← hinsns] at hbilled
  generalize session.disasmAll host code address count = outcome at hbilled ⊢
  obtain ⟨answer, after, host'⟩ := outcome
  cases hbilled with
  | refused hroom =>
    constructor
    · constructor
      · rintro ⟨instructions, ⟨⟩⟩
      · exact fun hfit => absurd hfit hroom
    · rintro instructions ⟨⟩
  | all hpays hafter hroom =>
    refine ⟨iff_of_true ⟨_, rfl⟩ hroom, ?_⟩
    rintro instructions ⟨⟩
    refine ⟨rfl, hpays.toNat_size, _, hafter, ?_, ?_, rfl⟩
    · exact Ledger.toNat_liveBytes_grown hheld hfits hroom
    · by_cases hnone : all.insns.length = 0
      · rw [if_pos hnone, Ledger.grown, if_pos hnone, UInt64.add_zero]
      · rw [if_neg hnone, Ledger.grown, if_neg hnone]

/-- A chunk and one fused record behind it take 13000 bytes and two calls. -/
theorem disasmAll_ok_iff_room_toy :
    let session := Toy.session 0
    let code : List UInt8 := List.replicate 64 0x90 ++ [0xf0, 0x0f, 0x90]
    let host (limit : UInt64) : Host :=
      { providers := [.tracking { policy := .limit limit, liveBytes := 100 }] }
    session.backend.KeepsSize ∧ (({} : Host).provider 0).NeverRefuses ∧
      (∃ instructions, (session.disasmAll (host 13100) code 0 0).1 = .ok instructions ∧
        instructions.allocatedBytes.toNat = 13000 ∧
        ∃ after, (session.disasmAll (host 13100) code 0 0).2.2.provider 0 = .tracking after ∧
          after.liveBytes.toNat = 13100 ∧ after.liveBlocks = 1 ∧ after.calls = 2) ∧
      ¬ ∃ instructions, (session.disasmAll (host 13099) code 0 0).1 = .ok instructions := by
  intro session code host
  have hkeep : session.backend.KeepsSize := Toy.keepsPlace_backend.keepsSize
  have hfree : (({} : Host).provider session.provider).NeverRefuses := Provider.neverRefuses_system
  have hwriter : ∀ limit, ((host limit).provider session.provider).SameHand
      (({} : Host).provider session.provider) := fun _ => .of_writes (fun _ _ => rfl) fun _ _ => rfl
  obtain ⟨hexists, henough⟩ := @disasmAll_ok_iff_room session 13100 (host 13100) {} _ hkeep rfl rfl
    rfl (by decide) hfree (hwriter 13100) code 0 0
  obtain ⟨-, hshort⟩ := @disasmAll_ok_iff_room session 13099 (host 13099) {} _ hkeep rfl rfl
    rfl (by decide) hfree (hwriter 13099) code 0 0
  obtain ⟨all, hall⟩ := hexists (by decide)
  have hlength : all.insns.length = 65 := by
    have hcount : (session.disasmAll {} code 0 0).1.toOption.map
        (fun instructions => instructions.insns.length) = some 65 := by decide +kernel
    rw [hall] at hcount
    exact Option.some.inj hcount
  have henough := henough all hall (.inl (by decide))
  have hshort := hshort all hall (.inl (by decide))
  rw [hlength] at henough hshort
  obtain ⟨instructions, hok⟩ := henough.1.2 (by decide)
  obtain ⟨-, hbytes, hafter⟩ := henough.2 instructions hok
  refine ⟨hkeep, hfree, ⟨instructions, hok, hbytes, hafter⟩, ?_⟩
  rw [hshort.1]
  decide

end Session

end Disassembly
