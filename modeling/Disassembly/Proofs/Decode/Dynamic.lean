import Disassembly.Proofs.Decode.Records
import Disassembly.Proofs.Decode.Region
/-!
# Dynamic decode

The dynamic loop combines the records of a code into the list that its buffer stands for, turn by
turn and whatever the buffer has moved so far. When memory fails, all that was taken is given
back; where nothing is ever refused this happens only for a region that cannot be that large.
-/
namespace Disassembly

namespace Session

open Buffer (Outcome)

variable {session : Session} {host host' host'' : Host} {code : List UInt8} {address : UInt64}
  {buffer buffer' : Buffer} {insn : Insn} {error : Error} {count produced produced' : Nat}

theorem append_outcome (h : buffer.Paid session.provider) (host : Host) (insn : Insn)
    (address : UInt64) :
    ∃ outcome, session.append host buffer insn address buffer.toList.length =
        (outcome.1.map fun buffer => (buffer, buffer.toList.length), outcome.2) ∧
      Outcome session.provider host (insn.grants ++ buffer.grants)
        (session.backend.offerTo buffer.toList insn) outcome := by
  have hlength := session.backend.length_offerTo buffer.toList insn
  have hperm := session.backend.grants_withLast_combine buffer.toList insn
  have hsome := session.backend.isSome_combine insn buffer.last
  unfold append Backend.offerTo
  unfold Backend.offerTo at hlength
  rw [buffer.last_eq] at hsome ⊢
  generalize session.backend.combine insn buffer.toList.getLast? = offer at hlength hperm hsome ⊢
  dsimp only at hlength ⊢
  rw [← Buffer.last_eq] at hsome
  rw [← Buffer.toList_withLast hsome] at hlength hperm ⊢
  have hpaid := Buffer.paid_withLast h offer.last
  have hgrant := buffer.grant_withLast offer.last
  generalize buffer.withLast offer.last = combined at hlength hperm hpaid hgrant ⊢
  -- What is dropped and what is kept are together the blocks of both records.
  have hcombine : host.Exchange (insn.grants ++ buffer.grants)
      (Grant.releaseAll offer.dropped host) (offer.insn.grants ++ combined.grants) := by
    refine ((Grant.releaseAll_exchange offer.dropped host).frame
      (offer.insn.grants ++ combined.grants)).perm ?_ (.refl _)
    have := hperm.append_right [buffer.grant]
    simpa only [Buffer.grants, hgrant, List.append_assoc] using this
  by_cases hfolded : offer.folded = true
  · rw [if_pos hfolded, if_pos hfolded] at hlength
    rw [if_pos hfolded, if_pos hfolded]
    have hrest := (Grant.releaseAll_exchange offer.insn.grants
      ((Grant.releaseAll offer.dropped host).note (.folded address))).frame combined.grants
    refine ⟨_, ?_, .kept rfl hpaid ((hcombine.note (.folded address)).trans hrest)⟩
    rw [Except.map, hlength, Nat.add_zero]
  · rw [if_neg hfolded, if_neg hfolded] at hlength
    rw [if_neg hfolded, if_neg hfolded]
    have hpush := (Buffer.push_outcome hpaid offer.insn (Grant.releaseAll offer.dropped host)).after
      hcombine
    cases hresult : combined.push offer.insn (Grant.releaseAll offer.dropped host) with
    | mk result pushed =>
      rw [hresult] at hpush
      refine ⟨(result, pushed), ?_, hpush⟩
      cases hpush with
      | kept hkept _ _ => rw [Except.map, hkept, hlength]
      | lost => rfl

theorem sweep_stop (h : session.decodeHead code address = none) :
    session.sweep host code address count buffer produced = (.ok buffer, host) := by
  rw [sweep]
  split
  · rfl
  · simp [next, h]

theorem sweep_refused (hcode : code ≠ [])
    (h : session.next host code address = (.error error, host')) :
    session.sweep host code address count buffer produced = (.error error, buffer.drop host') := by
  rw [sweep, dif_neg hcode, h]

theorem sweep_lost (hcode : code ≠ [])
    (h : session.next host code address = (.ok (some insn), host'))
    (happend : session.append host' buffer insn address produced = (.error error, host'')) :
    session.sweep host code address count buffer produced = (.error error, host'') := by
  rw [sweep, dif_neg hcode, h]
  simp only [happend]

theorem sweep_kept (hcode : code ≠ []) (hsize : insn.size ≠ 0)
    (h : session.next host code address = (.ok (some insn), host'))
    (happend : session.append host' buffer insn address produced =
      (.ok (buffer', produced'), host'')) :
    session.sweep host code address count buffer produced =
      if 0 < count ∧ produced' = count then (.ok buffer', host'')
      else session.sweep host'' (code.drop insn.size.toNat) (address + insn.size.toUInt64) count
        buffer' produced' := by
  rw [sweep, dif_neg hcode, h]
  simp only [happend, dif_neg hsize]

/-- The loop, started with some records in the buffer, offers it those of the code that remains. -/
theorem sweep_outcome (hkeep : session.backend.KeepsSize) (writer : Provider) (count : Nat)
    (host : Host) (code : List UInt8) (address : UInt64) (buffer : Buffer)
    (hpaid : buffer.Paid session.provider)
    (hwriter : (host.provider session.provider).SameHand writer) :
    Outcome session.provider host buffer.grants
      (session.backend.offerUpTo count buffer.toList (session.records writer code address))
      (session.sweep host code address count buffer buffer.toList.length) := by
  induction code, address using session.decode_induction generalizing host buffer with
  | stop code address hhead =>
    rw [sweep_stop hhead, records_of_none hhead]
    exact .kept rfl hpaid (.refl host _)
  | step code address decoded hhead ih =>
    have hcode := (decodeHead_bounds hhead).2.2
    have hturn := session.next_turn host code address
    rw [records_of_some hhead, Backend.offerUpTo]
    cases hnext : session.next host code address with
    | mk answer host' =>
      rw [hnext] at hturn
      cases hturn with
      | stop hnone =>
        rw [hhead] at hnone
        cases hnone
      | refused _ hrefuses hexchange =>
        rw [sweep_refused hcode hnext]
        apply Outcome.lost ((hexchange.frame buffer.grants).trans (buffer.drop_exchange host'))
        intro hfree
        exact absurd hrefuses (not_refuses_of_neverRefuses hfree _ _)
      | record hsome _ hexchange =>
        rw [hhead] at hsome
        cases hsome
        rw [record_sameHand hwriter] at hnext hexchange
        have hsize : (session.record writer code decoded).size ≠ 0 := by
          rw [size_record hkeep]
          exact (decodeHead_bounds hhead).1
        have htaken := hexchange.frame buffer.grants
        obtain ⟨⟨result, host''⟩, happend, houtcome⟩ :=
          append_outcome hpaid host' (session.record writer code decoded) address
        cases houtcome with
        | lost hlost hfree =>
          rw [sweep_lost hcode hnext happend]
          apply Outcome.lost (htaken.trans hlost)
          intro hn
          obtain ⟨herror, hlong⟩ := hfree (hexchange.neverRefuses hn)
          refine ⟨herror, Nat.lt_of_lt_of_le hlong ?_⟩
          split
          · exact Nat.le_refl _
          · exact Backend.length_le_offerUpTo _ _ _ _
        | @kept buffer' _ hlist hpaid' hkept =>
          rw [sweep_kept hcode hsize hnext happend, ← hlist, size_record hkeep]
          have hto := htaken.trans hkept
          split
          · exact .kept rfl hpaid' hto
          · have hreset := hto.reset session.provider
            refine Outcome.after hto (ih host'' buffer' hpaid' ?_)
            exact (Provider.SameHand.of_reset hreset).trans hwriter

inductive Collected (id : ProviderId) (host : Host) (insns : List Insn) :
    Except Error Instructions × Host → Prop where
  | all {grant : Grant} {host' : Host} : Instructions.Paid id { insns, grant } →
      host.Exchange [] host' ({ insns, grant } : Instructions).grants →
      Collected id host insns (.ok { insns, grant }, host')
  | nothing {error : Error} {host' : Host} : host.Exchange [] host' [] →
      ((host.provider id).NeverRefuses → error = .outOfMemory ∧ maxRecords < insns.length) →
      Collected id host insns (.error error, host')

theorem finish_collected {id : ProviderId} (hpaid : buffer.Paid id)
    (hexchange : host.Exchange [] host' buffer.grants) :
    Collected id host buffer.toList (buffer.finish host') := by
  have hfinished := Buffer.finish_finished hpaid host'
  generalize buffer.finish host' = result at hfinished
  cases hfinished with
  | all hpays hkept => exact .all hpays (hexchange.trans hkept)
  | nothing hlost hfree =>
    exact .nothing (hexchange.trans hlost) fun hn => hfree (hexchange.neverRefuses hn)

theorem collect_collected (hkeep : session.backend.KeepsSize) (writer : Provider)
    (host : Host) (code : List UInt8) (address : UInt64) (count : Nat)
    (hwriter : (host.provider session.provider).SameHand writer) :
    Collected session.provider host
      (session.backend.offerUpTo count [] (session.records writer code address))
      (session.collect host code address count) := by
  have houtcome := sweep_outcome hkeep writer count host code address (.empty session.provider)
    Buffer.paid_empty hwriter
  have hempty : host.Exchange [] host (Buffer.empty session.provider).grants :=
    Host.Exchange.empty host session.provider
  unfold collect
  cases hsweep : session.sweep host code address count (.empty session.provider) 0 with
  | mk result host' =>
    rw [Buffer.toList_empty, List.length_nil, hsweep] at houtcome
    cases houtcome with
    | lost hlost hfree => exact .nothing (hempty.trans hlost) hfree
    | kept hlist hpaid hkept => exact hlist ▸ finish_collected hpaid (hempty.trans hkept)

theorem collect_error (hkeep : session.backend.KeepsSize)
    (h : session.collect host code address count = (.error error, host')) :
    host.Exchange [] host' [] := by
  have hcollected := collect_collected hkeep (host.provider session.provider) host code address
    count fun _ _ => rfl
  rw [h] at hcollected
  cases hcollected with
  | nothing hexchange _ => exact hexchange

/-- Whatever the provider, what is returned is what combining makes of the records. -/
theorem insns_of_returned (hkeep : session.backend.KeepsSize) {instructions : Instructions}
    (h : (session.disasmAll host code address count).1 = .ok instructions) :
    instructions.insns = session.backend.offerUpTo count []
      (session.records (host.provider session.provider) code address) := by
  have hcollected := collect_collected hkeep (host.provider session.provider) host code address
    count fun _ _ => rfl
  unfold disasmAll at h
  cases hcollect : session.collect host code address count with
  | mk result host' =>
    rw [hcollect] at h hcollected
    cases hcollected with
    | all =>
      cases h
      rfl
    | nothing => cases h

/-- Where nothing is refused, only the size of a region limits what is returned. -/
theorem insns_of_neverRefuses (hkeep : session.backend.KeepsSize)
    (hfree : (host.provider session.provider).NeverRefuses) (code : List UInt8)
    (address : UInt64) (count : Nat) :
    (session.disasmAll host code address count).1.map Instructions.insns =
      regionOf (session.backend.offerUpTo count []
        (session.records (host.provider session.provider) code address)) := by
  have hcollected := collect_collected hkeep (host.provider session.provider) host code address
    count fun _ _ => rfl
  unfold disasmAll regionOf
  cases hcollect : session.collect host code address count with
  | mk result host' =>
    rw [hcollect] at hcollected
    cases hcollected with
    | all hpaid _ =>
      rw [if_pos hpaid.fits]
      rfl
    | nothing _ hlimit =>
      obtain ⟨rfl, hlong⟩ := hlimit hfree
      rw [if_neg (Nat.not_le_of_gt hlong)]
      rfl

theorem exists_disasmAll_of_fits (hkeep : session.backend.KeepsSize)
    (hfree : (host.provider session.provider).NeverRefuses)
    (hfits : (session.backend.offerUpTo count []
      (session.records (host.provider session.provider) code address)).length ≤ maxRecords) :
    ∃ instructions, (session.disasmAll host code address count).1 = .ok instructions := by
  have hinsns := insns_of_neverRefuses hkeep hfree code address count
  rw [regionOf, if_pos hfits] at hinsns
  cases hresult : (session.disasmAll host code address count).1 with
  | ok instructions => exact ⟨instructions, rfl⟩
  | error error =>
    rw [hresult] at hinsns
    cases hinsns

theorem exists_disasmAll (hkeep : session.backend.KeepsSize)
    (hfree : (host.provider session.provider).NeverRefuses) (hfits : code.length ≤ maxRecords) :
    ∃ instructions, (session.disasmAll host code address count).1 = .ok instructions := by
  have hrecords := session.length_records_le (p := host.provider session.provider) code address
  have hoffered := session.backend.length_offerUpTo_le count []
    (session.records (host.provider session.provider) code address)
  rw [List.length_nil] at hoffered
  exact exists_disasmAll_of_fits hkeep hfree (by omega)

end Session

end Disassembly
