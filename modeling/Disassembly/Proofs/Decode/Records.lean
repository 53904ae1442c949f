import Disassembly.Decode
import Disassembly.Proofs.Memory.Exchange
/-!
# The records of a code

What a decode would produce if memory were no concern: one record for each instruction, from the
first byte on to the first place that cannot be decoded. Both loops are measured against this
list. One turn of a loop either stops, or makes the next record of it, or is refused a payload.
-/
namespace Disassembly

namespace Provider

/-- Two providers that write every text alike. -/
def SameHand (p q : Provider) : Prop := ∀ out text, p.format out text = q.format out text

def Writes (provider : Provider) : Prop :=
  ∀ out text, provider.format out text = (true, out ++ text)

theorem SameHand.of_writes {p q : Provider} (hp : p.Writes) (hq : q.Writes) : p.SameHand q :=
  fun out text => (hp out text).trans (hq out text).symm

theorem SameHand.of_reset {p q : Provider} (h : p.reset = q.reset) : p.SameHand q := format_reset h

theorem SameHand.trans {p q r : Provider} (h : p.SameHand q) (k : q.SameHand r) : p.SameHand r :=
  fun out text => (h out text).trans (k out text)

end Provider

theorem Decoded.render_sameHand {p q : Provider} (h : p.SameHand q) (decoded : Decoded) :
    decoded.render p = decoded.render q := by
  rw [render, render, h]

def Backend.KeepsSize (backend : Backend) : Prop :=
  ∀ insn text, (backend.correct insn text).insn.size = insn.size

namespace Insn

variable (backend : Backend) (detail : Bool) (decoded : Decoded) (text : String)
  (code : List UInt8) (payload : Option (Payload Detail))

theorem grants_ofDecoded :
    (ofDecoded backend detail decoded text code payload).grants =
      (payload.map Payload.grant).toList := by
  simp only [ofDecoded, setOpStr, setMnemonic, grants]
  exact backend.grants_correct _ _

theorem size_ofDecoded (hkeep : backend.KeepsSize) :
    (ofDecoded backend detail decoded text code payload).size = decoded.size := by
  simp only [ofDecoded, setOpStr, setMnemonic]
  exact hkeep _ _

end Insn

namespace Session

variable {session : Session} {host host' : Host} {code : List UInt8} {address : UInt64}
  {decoded : Decoded} {error : Error} {p q : Provider}

theorem decodeHead_bounds (h : session.decodeHead code address = some decoded) :
    decoded.size ≠ 0 ∧ decoded.size.toNat ≤ code.length ∧ code ≠ [] := by
  unfold decodeHead at h
  split at h
  · cases h
  · split at h
    · cases h
    · next hsize =>
      cases h
      obtain ⟨hzero, hle⟩ := not_or.1 hsize
      refine ⟨hzero, by omega, ?_⟩
      rintro rfl
      exact hzero (UInt16.toNat_inj.1 (by simpa using hle))

theorem decode_of_decodeHead (h : session.decodeHead code address = some decoded) :
    session.backend.decode session.dialect code address session.detail = some decoded := by
  rw [decodeHead] at h
  split at h
  · cases h
  · next hdecode =>
    split at h
    · cases h
    · rwa [← h]

theorem decodeHead_nil : session.decodeHead [] address = none := by
  cases h : session.decodeHead [] address with
  | none => rfl
  | some decoded => exact absurd rfl (decodeHead_bounds h).2.2

def payloadOf (session : Session) (decoded : Decoded) : Option (Payload Detail) :=
  (if session.detail then decoded.detail else none).map (Payload.paid session.provider)

/-- The record of a decoded instruction whose line is written by `writer`. -/
def record (session : Session) (writer : Provider) (code : List UInt8) (decoded : Decoded) : Insn :=
  .ofDecoded session.backend session.detail decoded (decoded.render writer) code
    (session.payloadOf decoded)

def records (session : Session) (writer : Provider) (code : List UInt8) (address : UInt64) :
    List Insn :=
  match h : session.decodeHead code address with
  | none => []
  | some decoded =>
    have := length_drop_lt (decodeHead_bounds h).2.2 (decodeHead_bounds h).1
    session.record writer code decoded ::
      session.records writer (code.drop decoded.size.toNat) (address + decoded.size.toUInt64)
termination_by code.length
decreasing_by exact this

theorem records_of_none (h : session.decodeHead code address = none) :
    session.records p code address = [] := by
  rw [records]
  split
  · rfl
  · next hsome => rw [h] at hsome; cases hsome

theorem records_of_some (h : session.decodeHead code address = some decoded) :
    session.records p code address = session.record p code decoded ::
      session.records p (code.drop decoded.size.toNat) (address + decoded.size.toUInt64) := by
  rw [records]
  split
  · next hnone => rw [h] at hnone; cases hnone
  · next hsome => rw [h] at hsome; cases hsome; rfl

theorem record_sameHand (h : p.SameHand q) (decoded : Decoded) :
    session.record p code decoded = session.record q code decoded := by
  rw [record, record, Decoded.render_sameHand h]

/-- Induction along a code, one decoded instruction at a time. -/
theorem decode_induction (session : Session) {motive : List UInt8 → UInt64 → Prop}
    (stop : ∀ code address, session.decodeHead code address = none → motive code address)
    (step : ∀ code address decoded, session.decodeHead code address = some decoded →
      motive (code.drop decoded.size.toNat) (address + decoded.size.toUInt64) →
      motive code address)
    (code : List UInt8) (address : UInt64) : motive code address := by
  induction hlength : code.length using Nat.strongRecOn generalizing code address with
  | ind n ih =>
    cases h : session.decodeHead code address with
    | none => exact stop code address h
    | some decoded =>
      have hlt := length_drop_lt (decodeHead_bounds h).2.2 (decodeHead_bounds h).1
      exact step code address decoded h (ih _ (hlength ▸ hlt) _ _ rfl)

theorem records_sameHand (h : p.SameHand q) (code : List UInt8) (address : UInt64) :
    session.records p code address = session.records q code address := by
  induction code, address using session.decode_induction with
  | stop code address hnone => rw [records_of_none hnone, records_of_none hnone]
  | step code address decoded hsome ih =>
    rw [records_of_some hsome, records_of_some hsome, record_sameHand h, ih]

theorem size_record (hkeep : session.backend.KeepsSize) (decoded : Decoded) :
    (session.record p code decoded).size = decoded.size :=
  Insn.size_ofDecoded _ _ _ _ _ _ hkeep

theorem length_records_le (code : List UInt8) (address : UInt64) :
    (session.records p code address).length ≤ code.length := by
  induction code, address using session.decode_induction with
  | stop code address hnone => simp [records_of_none hnone]
  | step code address decoded hsome ih =>
    have hlt := length_drop_lt (decodeHead_bounds hsome).2.2 (decodeHead_bounds hsome).1
    rw [records_of_some hsome, List.length_cons]
    omega

def Refuses (session : Session) (host : Host) (decoded : Decoded) (error : Error) : Prop :=
  session.detail = true ∧ ∃ value, decoded.detail = some value ∧
    (Payload.allocate host session.provider value).1 = .error error

theorem requestPayload_ok {payload : Option (Payload Detail)}
    (h : decoded.requestPayload host session.provider session.detail = (.ok payload, host')) :
    payload = session.payloadOf decoded ∧ (∀ error, ¬ session.Refuses host decoded error) ∧
      host.Exchange [] host' (payload.map Payload.grant).toList := by
  unfold Decoded.requestPayload at h
  split at h
  · next hnone =>
    cases h
    refine ⟨by simp [payloadOf, hnone], ?_, .refl host []⟩
    rintro error ⟨hdetail, value, hvalue, -⟩
    simp [hdetail, hvalue] at hnone
  · next value hsome =>
    split at h
    · next hallocate =>
      cases h
      obtain ⟨rfl, hexchange⟩ := Payload.allocate_ok hallocate
      refine ⟨by simp [payloadOf, hsome], ?_, by simpa using hexchange⟩
      rintro error ⟨hdetail, other, hother, hrefused⟩
      simp only [hdetail, if_true, hother, Option.some.injEq] at hsome
      rw [hsome, hallocate] at hrefused
      cases hrefused
    · cases h

theorem requestPayload_error
    (h : decoded.requestPayload host session.provider session.detail = (.error error, host')) :
    session.Refuses host decoded error ∧ host.Exchange [] host' [] := by
  unfold Decoded.requestPayload at h
  split at h
  · cases h
  · next value hsome =>
    split at h
    · cases h
    · next hallocate =>
      cases h
      refine ⟨?_, Payload.allocate_error hallocate⟩
      by_cases hdetail : session.detail = true
      · simp only [hdetail, if_true] at hsome
        exact ⟨hdetail, value, hsome, by rw [hallocate]⟩
      · simp [hdetail] at hsome

inductive Turn (session : Session) (host : Host) (code : List UInt8) (address : UInt64) :
    Except Error (Option Insn) × Host → Prop where
  | stop : session.decodeHead code address = none → Turn session host code address (.ok none, host)
  | record {decoded : Decoded} {host' : Host} : session.decodeHead code address = some decoded →
      (∀ error, ¬ session.Refuses host decoded error) →
      host.Exchange [] host'
        (session.record (host.provider session.provider) code decoded).grants →
      Turn session host code address
        (.ok (some (session.record (host.provider session.provider) code decoded)), host')
  | refused {decoded : Decoded} {error : Error} {host' : Host} :
      session.decodeHead code address = some decoded → session.Refuses host decoded error →
      host.Exchange [] host' [] → Turn session host code address (.error error, host')

theorem next_turn (session : Session) (host : Host) (code : List UInt8) (address : UInt64) :
    Turn session host code address (session.next host code address) := by
  cases hhead : session.decodeHead code address with
  | none => simpa [next, hhead] using Turn.stop hhead
  | some decoded =>
    simp only [next, hhead]
    cases hrequest : decoded.requestPayload host session.provider session.detail with
    | mk answer host' =>
      cases answer with
      | error error =>
        obtain ⟨hrefuses, hexchange⟩ := requestPayload_error hrequest
        exact .refused hhead hrefuses hexchange
      | ok payload =>
        obtain ⟨rfl, hgranted, hexchange⟩ := requestPayload_ok hrequest
        refine .record hhead hgranted (Host.Exchange.note ?_ _)
        rwa [record, Insn.grants_ofDecoded]

theorem not_refuses_of_neverRefuses (h : (host.provider session.provider).NeverRefuses)
    (decoded : Decoded) (error : Error) : ¬ session.Refuses host decoded error := by
  rintro ⟨-, value, -, hrefused⟩
  obtain ⟨host', hallocate⟩ := Payload.allocate_of_neverRefuses h value
  rw [hallocate] at hrefused
  cases hrefused

end Session

end Disassembly
