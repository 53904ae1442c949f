import Disassembly.Proofs.Decode.Records
import Disassembly.Proofs.Decode.Region
import Disassembly.Proofs.Memory.Confined
/-!
# A decode asks the session's own provider

Both decodes make every request to the provider of their session, and their records hold blocks of
that provider alone. A fixed decode gives back what the slots held that it writes over, wherever
that is from. A dynamic decode gives back nothing but what it took itself.
-/
namespace Disassembly

open Grant (AllFrom allFrom_nil allFrom_append)

theorem Insn.allGrants_cons (insn : Insn) (insns : List Insn) :
    Insn.allGrants (insn :: insns) = insn.grants ++ Insn.allGrants insns := List.flatMap_cons

theorem Decoded.requestPayload_draws (decoded : Decoded) (id : ProviderId) (detail : Bool) :
    Draws id (fun payload => (payload.map Payload.grant).toList)
      fun host => decoded.requestPayload host id detail := by
  unfold requestPayload
  cases (if detail then decoded.detail else none) with
  | none => exact Draws.ok allFrom_nil
  | some value =>
    apply (Payload.allocate_draws id value).elim
    · intro host error host' hrun
      simp only [hrun]
      rfl
    · intro host payload host' hrun
      simp only [hrun]
      rfl
    · exact Draws.error
    · exact fun payload hfrom => Draws.ok hfrom

namespace Buffer

variable {buffer : Buffer} {id : ProviderId} {insn : Insn}

theorem allFrom_empty (id : ProviderId) : AllFrom id (Buffer.empty id).grants :=
  Grant.allFrom_singleton rfl

theorem drop_confined {α : Type} {value : α} {post : α → Prop} (hpost : post value)
    (h : AllFrom id buffer.grants) :
    Confined id (fun _ => []) post fun host => (value, buffer.drop host) :=
  Confined.after_own_release (.pure rfl hpost) h

theorem flush_draws (h : AllFrom id buffer.grants) : Draws id Buffer.grants buffer.flush := by
  obtain ⟨hinsns, hregion⟩ := allFrom_append.1 h
  by_cases hempty : buffer.staging.isEmpty
  · refine (Draws.ok h).of_eq fun host => ?_
    rw [flush, if_pos hempty]
  · have hresize := Grant.resize_draws (hregion _ List.mem_cons_self)
      (buffer.grant.size + buffer.staging.length.toUInt64 * recordBytes)
    apply hresize.elim
    · intro host error host' hrun
      rw [flush, if_neg hempty]
      simp only [hrun]
      rfl
    · intro host grant host' hrun
      rw [flush, if_neg hempty]
      simp only [hrun]
      rfl
    · exact fun error => drop_confined trivial h
    · intro grant hgrant
      by_cases hfits : maxRecords < (buffer.region ++ buffer.staging).length
      · simp only [if_pos hfits]
        exact drop_confined trivial (allFrom_append.2 ⟨hinsns, hgrant⟩)
      · simp only [if_neg hfits]
        refine Confined.after_note (Draws.ok ?_) _
        rw [grants, toList, List.append_nil]
        exact allFrom_append.2 ⟨hinsns, hgrant⟩

theorem push_draws (h : AllFrom id buffer.grants) (hinsn : AllFrom id insn.grants) :
    Draws id Buffer.grants (buffer.push insn) := by
  have hstaged : AllFrom id (buffer.stage insn).grants :=
    (allFrom_append.2 ⟨hinsn, h⟩).perm (grants_stage buffer insn)
  by_cases hfull : (buffer.stage insn).staging.length = chunkSize
  · refine (flush_draws hstaged).of_eq fun host => ?_
    rw [push, if_pos hfull]
  · refine (Draws.ok hstaged).of_eq fun host => ?_
    rw [push, if_neg hfull]

theorem finish_draws (h : AllFrom id buffer.grants) :
    Draws id Instructions.grants buffer.finish := by
  apply (flush_draws h).elim
  · intro host error host' hrun
    rw [finish, hrun]
  · intro host flushed host' hrun
    rw [finish, hrun]
  · exact Draws.error
  · intro flushed hflushed
    obtain ⟨hinsns, hregion⟩ := allFrom_append.1 hflushed
    rw [toList, Insn.allGrants_append] at hinsns
    exact Draws.ok (allFrom_append.2 ⟨(allFrom_append.1 hinsns).1, hregion⟩)

end Buffer

namespace Session

variable {session : Session} {buffer : Buffer} {insn : Insn}

theorem next_draws (session : Session) (code : List UInt8) (address : UInt64) :
    Draws session.provider (fun insn => Insn.allGrants insn.toList)
      fun host => session.next host code address := by
  cases hhead : session.decodeHead code address with
  | none =>
    have hnone : Draws session.provider (fun insn : Option Insn => Insn.allGrants insn.toList)
        fun host => (.ok none, host) := Draws.ok allFrom_nil
    refine hnone.of_eq fun host => ?_
    rw [next, hhead]
  | some decoded =>
    -- The line is written before anything is requested, by the provider as it is then.
    have hline := Confined.read session.provider decoded.render
    have hpayload := decoded.requestPayload_draws session.provider session.detail
    have hrecord : ∀ text, Draws session.provider (fun insn => Insn.allGrants insn.toList)
        fun host =>
          ((decoded.requestPayload host session.provider session.detail).1.map fun payload =>
              some (Insn.ofDecoded session.backend session.detail decoded text code payload),
            (decoded.requestPayload host session.provider session.detail).2) := by
      intro text
      refine hpayload.map _ (fun _ => rfl) ?_
      rintro (error | payload) hfrom
      · trivial
      · change AllFrom session.provider (Insn.allGrants [_])
        rw [Insn.allGrants_singleton, Insn.grants_ofDecoded]
        exact hfrom
    refine (hline.bind fun text _ => hrecord text).of_alike fun host => ?_
    rw [next, hhead]
    cases hrun : decoded.requestPayload host session.provider session.detail with
    | mk answer host' =>
      simp only [hrun]
      cases answer with
      | error error => exact ⟨rfl, rfl⟩
      | ok payload => exact ⟨rfl, rfl⟩

/-- Only the slots that are written over are given back. -/
theorem fill_confined (session : Session) (code : List UInt8) (address : UInt64)
    (slots : List Insn) :
    Confined session.provider (fun filled => Insn.allGrants (slots.take filled.produced.length))
      (fun filled => AllFrom session.provider (Insn.allGrants filled.produced))
      fun host => session.fill host code address slots := by
  induction slots generalizing code address with
  | nil => exact .pure rfl allFrom_nil
  | cons slot slots ih =>
    by_cases hcode : code.isEmpty
    · have hstop : Confined session.provider
          (fun filled : Filled => Insn.allGrants ((slot :: slots).take filled.produced.length))
          (fun filled => AllFrom session.provider (Insn.allGrants filled.produced))
          fun host => (⟨[], slot :: slots, none⟩, host) := .pure rfl allFrom_nil
      refine hstop.of_eq fun host => ?_
      rw [fill, if_pos hcode]
    · apply (session.next_draws code address).elim
      · intro host error host' hrun
        rw [fill, if_neg hcode, hrun]
      · intro host insn? host' hrun
        rw [fill, if_neg hcode, hrun]
      · exact fun error => .pure rfl allFrom_nil
      · intro insn? hinsn
        cases insn? with
        | none => exact .pure rfl allFrom_nil
        | some insn =>
          rw [Option.toList_some, Insn.allGrants_singleton] at hinsn
          have hrest := (ih (code.drop insn.size.toNat)
            (address + insn.size.toUInt64)).after_release slot.grants
          refine hrest.map (fun filled => { filled with produced := insn :: filled.produced })
            (fun filled => ?_) fun filled hfilled => ?_
          · rw [List.length_cons, List.take_succ_cons, Insn.allGrants_cons]
          · rw [Insn.allGrants_cons]
            exact allFrom_append.2 ⟨hinsn, hfilled⟩

theorem append_draws (session : Session) (hbuffer : AllFrom session.provider buffer.grants)
    (hinsn : AllFrom session.provider insn.grants) (address : UInt64) (produced : Nat) :
    Draws session.provider (fun kept : Buffer × Nat => kept.1.grants)
      fun host => session.append host buffer insn address produced := by
  obtain ⟨hinsns, hregion⟩ := allFrom_append.1 hbuffer
  have hperm := session.backend.grants_withLast_combine buffer.toList insn
  have hsome := session.backend.isSome_combine insn buffer.last
  unfold append
  dsimp only
  rw [← Buffer.last_eq] at hperm
  generalize session.backend.combine insn buffer.last = offer at hperm hsome ⊢
  rw [← Buffer.toList_withLast hsome] at hperm
  have hgrant := buffer.grant_withLast offer.last
  generalize buffer.withLast offer.last = combined at hperm hgrant ⊢
  obtain ⟨hdropped, hrest⟩ := allFrom_append.1 ((allFrom_append.2 ⟨hinsn, hinsns⟩).perm hperm)
  obtain ⟨hoffered, hkept⟩ := allFrom_append.1 hrest
  have hcombined : AllFrom session.provider combined.grants :=
    allFrom_append.2 ⟨hkept, hgrant ▸ hregion⟩
  by_cases hfolded : offer.folded = true
  · simp only [if_pos hfolded]
    have hdone : Draws session.provider (fun kept : Buffer × Nat => kept.1.grants)
      fun host => (.ok (combined, produced), host) := Draws.ok hcombined
    have hnoted := (hdone.after_own_release hoffered).after_note (.folded address)
    exact hnoted.after_own_release hdropped
  · simp only [if_neg hfolded]
    have hpush := (Buffer.push_draws hcombined hoffered).after_own_release hdropped
    apply Draws.elim hpush
    · intro host error host' hrun
      rw [hrun]
    · intro host pushed host' hrun
      rw [hrun]
    · exact Draws.error
    · exact fun pushed hpushed => Draws.ok hpushed

theorem sweep_draws (session : Session) (code : List UInt8) (address : UInt64) (count : Nat)
    (hbuffer : AllFrom session.provider buffer.grants) (produced : Nat) :
    Draws session.provider Buffer.grants
      fun host => session.sweep host code address count buffer produced := by
  -- The induction is on what remains of the code, as in the loop itself.
  induction hlength : code.length using Nat.strongRecOn
    generalizing code address buffer produced with
  | ind n ih =>
    by_cases hcode : code = []
    · refine (Draws.ok hbuffer).of_eq fun host => ?_
      rw [sweep, dif_pos hcode]
    · apply (session.next_draws code address).elim
      · intro host error host' hrun
        rw [sweep, dif_neg hcode, hrun]
      · intro host insn? host' hrun
        rw [sweep, dif_neg hcode, hrun]
      · exact fun error => Buffer.drop_confined trivial hbuffer
      · intro insn? hinsn
        cases insn? with
        | none => exact Draws.ok hbuffer
        | some insn =>
          rw [Option.toList_some, Insn.allGrants_singleton] at hinsn
          apply (session.append_draws hbuffer hinsn address produced).elim
          · intro host error host' hrun
            simp only [hrun]
            rfl
          · intro host kept host' hrun
            simp only [hrun]
            rfl
          · exact Draws.error
          · rintro ⟨kept, produced⟩ hkept
            by_cases hfull : 0 < count ∧ produced = count
            · simp only [if_pos hfull]
              exact Draws.ok hkept
            · by_cases hsize : insn.size = 0
              · simp only [if_neg hfull, dif_pos hsize]
                exact Draws.ok hkept
              · simp only [if_neg hfull, dif_neg hsize]
                exact ih _ (hlength ▸ length_drop_lt hcode hsize) _ _ hkept _ rfl

theorem collect_draws (session : Session) (code : List UInt8) (address : UInt64) (count : Nat) :
    Draws session.provider Instructions.grants
      fun host => session.collect host code address count := by
  apply (session.sweep_draws code address count (Buffer.allFrom_empty session.provider) 0).elim
  · intro host error host' hrun
    rw [collect, hrun]
  · intro host buffer host' hrun
    rw [collect, hrun]
  · exact Draws.error
  · exact fun buffer hbuffer => Buffer.finish_draws hbuffer

end Session

end Disassembly
