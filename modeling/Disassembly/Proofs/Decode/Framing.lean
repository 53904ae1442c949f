import Disassembly.Proofs.Decode.Fixed
import Disassembly.Proofs.Decode.Tiling
import Disassembly.Proofs.Family.Combiners
/-!
# What a fixed decode leaves in its slots

A fixed decode puts records into the first slots and does not look at what was there. All it does
to the memory can be said from the outside: for each record in turn its payload is requested, and
then what its slot held is given back; where a payload is refused, there is that one request more.
-/
namespace Disassembly

namespace Grant

def request (host : Host) (grant : Grant) : Host := (host.allocate grant.provider grant.size).2

end Grant

namespace Insn

/-- A slot is overwritten by a record: what the record holds is requested, and then what the slot
held is given back. -/
def overwrite (host : Host) (slot insn : Insn) : Host :=
  Grant.releaseAll slot.grants (insn.grants.foldl Grant.request host)

def overwriteAll (host : Host) : List (Insn × Insn) → Host
  | [] => host
  | (slot, insn) :: rest => overwriteAll (overwrite host slot insn) rest

end Insn

/-! What is reported makes no difference to requests. -/

namespace Host

theorem quiet_release (grant : Grant) (host : Host) :
    (grant.release host).quiet = grant.release host.quiet := by
  by_cases hheld : grant.held = true
  · simp only [Grant.release, hheld, if_true]
    rfl
  · simp only [Grant.release, hheld]
    rfl

theorem quiet_releaseAll (grants : List Grant) (host : Host) :
    (Grant.releaseAll grants host).quiet = Grant.releaseAll grants host.quiet := by
  induction grants generalizing host with
  | nil => rfl
  | cons grant grants ih =>
    have hrest := ih (grant.release host)
    rw [quiet_release] at hrest
    exact hrest

theorem quiet_allocate (host : Host) (id : ProviderId) (size : UInt64) :
    host.quiet.allocate id size = ((host.allocate id size).1, (host.allocate id size).2.quiet) :=
  rfl

theorem quiet_requestAll (grants : List Grant) (host : Host) :
    (grants.foldl Grant.request host).quiet = grants.foldl Grant.request host.quiet := by
  induction grants generalizing host with
  | nil => rfl
  | cons grant grants ih => exact ih (Grant.request host grant)

end Host

theorem Payload.allocate_eq {α : Type} [Footprint α] (host : Host) (id : ProviderId) (value : α) :
    allocate host id value =
      ((host.allocate id (Footprint.cost value)).1.map fun _ => paid id value,
        (host.allocate id (Footprint.cost value)).2) := by
  unfold allocate Grant.allocate
  cases host.allocate id (Footprint.cost value) with
  | mk answer host' => cases answer <;> rfl

namespace Session

open CommandLine (coveredBytes)

variable {session : Session} {host host' : Host} {code : List UInt8} {address : UInt64}
  {decoded : Decoded} {insn slot : Insn} {slots : List Insn} {error : Error}

theorem requestPayload_host {payload : Option (Payload Detail)}
    (h : decoded.requestPayload host session.provider session.detail = (.ok payload, host')) :
    host' = (payload.map Payload.grant).toList.foldl Grant.request host := by
  unfold Decoded.requestPayload at h
  split at h
  · cases h
    rfl
  · next value hsome =>
    rw [Payload.allocate_eq] at h
    cases hanswer : host.allocate session.provider (Footprint.cost value) with
    | mk answer granted =>
      rw [hanswer] at h
      cases answer with
      | error error => cases h
      | ok _ =>
        cases h
        show _ = (host.allocate session.provider (Footprint.cost value)).2
        rw [hanswer]

theorem requestPayload_host_refused
    (h : decoded.requestPayload host session.provider session.detail = (.error error, host')) :
    ∃ value, session.detail = true ∧ decoded.detail = some value ∧
      host.allocate session.provider (Footprint.cost value) = (.error error, host') := by
  obtain ⟨⟨hdetail, value, hvalue, -⟩, -⟩ := requestPayload_error h
  refine ⟨value, hdetail, hvalue, ?_⟩
  simp only [Decoded.requestPayload, hdetail, hvalue, if_true, Payload.allocate_eq] at h
  cases hanswer : host.allocate session.provider (Footprint.cost value) with
  | mk answer granted =>
    rw [hanswer] at h
    cases answer with
    | ok _ => cases h
    | error _ =>
      cases h
      rfl

/-- A turn that makes a record requests what it holds. -/
theorem next_host (h : session.next host code address = (.ok (some insn), host')) :
    host'.quiet = insn.grants.foldl Grant.request host.quiet := by
  unfold next at h
  split at h
  · cases h
  · dsimp only at h
    split at h
    · cases h
    · next hrequest =>
      cases h
      rw [Insn.grants_ofDecoded, ← Host.quiet_requestAll, ← requestPayload_host hrequest]
      rfl

theorem next_host_refused (h : session.next host code address = (.error error, host')) :
    ∃ decoded value, session.decodeHead code address = some decoded ∧ session.detail = true ∧
      decoded.detail = some value ∧
      host.allocate session.provider (Footprint.cost value) = (.error error, host') := by
  unfold next at h
  split at h
  · cases h
  · next decoded hhead =>
    dsimp only at h
    split at h
    · next hrequest =>
      cases h
      obtain ⟨value, hrefused⟩ := requestPayload_host_refused hrequest
      exact ⟨decoded, value, hhead, hrefused⟩
    · cases h

/-- Why a fixed decode goes no further, with so many slots left: there is none, or nothing can be
decoded, or the payload of what was decoded is refused. -/
inductive Ends (session : Session) (host : Host) (code : List UInt8) (address : UInt64) :
    List Insn → Option Error → Host → Prop where
  | full : Ends session host code address [] none host
  | undecodable {slots : List Insn} : session.Undecodable code address →
      Ends session host code address slots none host
  | refused {slot : Insn} {slots : List Insn} {decoded : Decoded} {value : Detail} {error : Error}
      {host' : Host} : session.decodeHead code address = some decoded → session.detail = true →
      decoded.detail = some value →
      host.allocate session.provider (Footprint.cost value) = (.error error, host') →
      Ends session host code address (slot :: slots) (some error) host'

/-- Each turn overwrites one slot, and the host behind them all is the one that the end is about. -/
theorem fill_ends (slots : List Insn) (host : Host) (code : List UInt8) (address : UInt64) :
    let filled := (session.fill host code address slots).1
    let covered := coveredBytes filled.produced
    session.Ends (Insn.overwriteAll host.quiet (slots.zip filled.produced)) (code.drop covered)
      (address + covered.toUInt64) filled.untouched filled.error
      (session.fill host code address slots).2.quiet := by
  induction slots generalizing host code address with
  | nil => exact .full
  | cons slot slots ih =>
    have hturn := session.next_turn host code address
    cases hnext : session.next host code address with
    | mk answer host' =>
      rw [hnext] at hturn
      cases hturn with
      | stop hhead =>
        rw [fill_stop hhead]
        apply Ends.undecodable
        simpa using decodeHead_eq_none_iff.1 hhead
      | refused hhead hrefuses hexchange =>
        rw [fill_refused (decodeHead_bounds hhead).2.2 hnext]
        obtain ⟨decoded, value, hsome, hdetail, hvalue, hanswer⟩ := next_host_refused hnext
        have hquiet := host.quiet_allocate session.provider (Footprint.cost value)
        rw [hanswer] at hquiet
        exact .refused (by simpa using hsome) hdetail hvalue hquiet
      | @record decoded _ hhead hgranted hexchange =>
        generalize session.record _ code decoded = insn at hnext
        -- What the slot held goes back only once the new record is there.
        have hquiet : (Grant.releaseAll slot.grants host').quiet =
            Insn.overwrite host.quiet slot insn := by
          rw [Host.quiet_releaseAll, next_host hnext]
          rfl
        have hrest := ih (Grant.releaseAll slot.grants host') (code.drop insn.size.toNat)
          (address + insn.size.toUInt64)
        dsimp only at hrest
        rw [hquiet, List.drop_drop, ← add_covered] at hrest
        rw [fill_record (decodeHead_bounds hhead).2.2 hnext]
        exact hrest

/-- What a fixed decode returns, what it leaves in the slots, and what it does to the memory. -/
structure Framed (session : Session) (host : Host) (code : List UInt8) (address : UInt64)
    (slots : List Insn) (filled : Filled) (session' : Session) (host' : Host) : Prop where
  within_slots : filled.produced.length ≤ slots.length
  within_code : filled.produced.length ≤ code.length
  fresh : filled.produced =
    (session.records (host.provider session.provider) code address).take filled.produced.length
  untouched : filled.slots = filled.produced ++ slots.drop filled.produced.length
  exchange : host.Exchange (Insn.allGrants slots) host' (Insn.allGrants filled.slots)
  ends : session.Ends (Insn.overwriteAll host.quiet (slots.zip filled.produced))
    (code.drop (coveredBytes filled.produced))
    (address + (coveredBytes filled.produced).toUInt64)
    (slots.drop filled.produced.length) session'.lastError host'.quiet
  remembered : session' = { session with lastError := session'.lastError }

/-- A fixed decode writes freshly decoded records into the first slots and leaves the others as
they are. Its requests are those of the records and the releases those of the slots written over,
each once, and where it is refused a payload it remembers this. What the slots held before makes
no difference to the records unless the provider refuses something. -/
theorem disasm_framed (hkeep : session.backend.KeepsSize) (host : Host) (code : List UInt8)
    (address : UInt64) (slots : List Insn) :
    let decode := session.disasm host code address slots
    Framed session host code address slots decode.1 decode.2.1 decode.2.2 ∧
      ((host.provider session.provider).NeverRefuses →
        ∀ other : List Insn, other.length = slots.length →
          (session.disasm host code address other).1.produced = decode.1.produced) := by
  intro decode
  have hfills := fill_spec hkeep (host.provider session.provider) slots host code address
    fun _ _ => rfl
  have hends := session.fill_ends slots host code address
  constructor
  · refine ⟨hfills.fits, ?_, List.prefix_iff_eq_take.1 hfills.produced, ?_, hfills.exchange, ?_,
      rfl⟩
    · exact Nat.le_trans hfills.produced.length_le (session.length_records_le code address)
    · exact congrArg (decode.1.produced ++ ·) hfills.untouched
    · dsimp only at hends
      rw [hfills.untouched] at hends
      exact hends
  · intro hfree other hlength
    have hproduced : decode.1.produced =
        (session.records (host.provider session.provider) code address).take slots.length :=
      produced_eq_take hkeep hfree code address slots
    rw [produced_eq_take hkeep hfree, hlength, hproduced]

/-- Two slots that hold a payload each, and a provider that grants only its first call. The first
payload is exchanged, in two calls, and the second is kept when the third call is refused. -/
theorem disasm_framed_refused :
    let session := { Toy.session 0 with detail := true }
    let old : Insn := { Insn.blank 7 1 with detail := some (.paid 0 (Toy.detailOf none)) }
    let host : Host :=
      { providers :=
          [.tracking { policy := .schedule (· < 1), liveBytes := 432, liveBlocks := 2 }] }
    let decode := session.disasm host [0x90, 0x01, 0x02] 0 [old, old]
    session.backend.KeepsSize ∧
      decode.1.slots = (session.records .system [0x90, 0x01, 0x02] 0).take 1 ++ [old] ∧
      decode.2.1.lastError = some .outOfMemory ∧
      (decode.2.2.provider 0).ledger?.map (fun ledger => (ledger.liveBlocks, ledger.calls)) =
        some (2, 3) := by
  intro session old host decode
  have hkeep : session.backend.KeepsSize := Toy.keepsPlace_backend.keepsSize
  obtain ⟨hframed, -⟩ := disasm_framed hkeep host [0x90, 0x01, 0x02] 0 [old, old]
  have hone : decode.1.produced.length = 1 := by decide +kernel
  have hslots : decode.1.slots = decode.1.produced ++ [old] := by
    rw [hframed.untouched, hone]
    rfl
  have hhand : (host.provider session.provider).SameHand .system := fun _ _ => rfl
  refine ⟨hkeep, ?_, by decide +kernel, by decide +kernel⟩
  rw [hslots, hframed.fresh, hone, records_sameHand hhand]

end Session

end Disassembly
