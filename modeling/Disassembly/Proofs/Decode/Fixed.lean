import Disassembly.Proofs.Decode.Flat
import Disassembly.Proofs.Decode.Records
/-!
# Fixed decode

A fixed decode writes a prefix of the records of a code. It ends where the slots or the records
end, or where a payload is refused, and this is the error that it reports. The slots behind the
last record are not touched, and the blocks of the slots written over are given back.
-/
namespace Disassembly

namespace Session

variable {session : Session} {host host' : Host} {code : List UInt8} {address : UInt64}
  {insn slot : Insn} {slots : List Insn} {error : Error}

inductive RefusedIn (session : Session) :
    Host → List UInt8 → UInt64 → List Insn → Error → Prop where
  | here {host code address decoded error slot slots} :
      session.decodeHead code address = some decoded → session.Refuses host decoded error →
      RefusedIn session host code address (slot :: slots) error
  | later {host host' : Host} {code address insn error slot slots} :
      session.next host code address = (.ok (some insn), host') →
      RefusedIn session (Grant.releaseAll slot.grants host') (code.drop insn.size.toNat)
        (address + insn.size.toUInt64) slots error →
      RefusedIn session host code address (slot :: slots) error

theorem fill_stop (h : session.decodeHead code address = none) :
    session.fill host code address (slot :: slots) = (⟨[], slot :: slots, none⟩, host) := by
  rw [fill]
  split
  · rfl
  · simp [next, h]

theorem fill_refused (hcode : code ≠ [])
    (h : session.next host code address = (.error error, host')) :
    session.fill host code address (slot :: slots) =
      (⟨[], slot :: slots, some error⟩, host') := by
  rw [fill, if_neg (by simpa using hcode), h]

theorem fill_record (hcode : code ≠ [])
    (h : session.next host code address = (.ok (some insn), host')) :
    session.fill host code address (slot :: slots) =
      let rest := session.fill (Grant.releaseAll slot.grants host') (code.drop insn.size.toNat)
        (address + insn.size.toUInt64) slots
      ({ rest.1 with produced := insn :: rest.1.produced }, rest.2) := by
  rw [fill, if_neg (by simpa using hcode), h]

structure Fills (host : Host) (records slots : List Insn) (refused : Error → Prop)
    (filled : Filled) (host' : Host) : Prop where
  produced : filled.produced <+: records
  untouched : filled.untouched = slots.drop filled.produced.length
  fits : filled.produced.length ≤ slots.length
  complete : filled.error = none → filled.produced = records.take slots.length
  refused : ∀ error, filled.error = some error ↔ refused error
  exchange : host.Exchange (Insn.allGrants slots) host' (Insn.allGrants filled.slots)

theorem refuses_unique {decoded : Decoded} {first second : Error}
    (h : session.Refuses host decoded first) (k : session.Refuses host decoded second) :
    first = second := by
  obtain ⟨-, value, hvalue, hfirst⟩ := h
  obtain ⟨-, other, hother, hsecond⟩ := k
  rw [hvalue] at hother
  cases hother
  exact Except.error.inj (hfirst.symm.trans hsecond)

theorem exchange_overwrite {granted : List Grant} (slot : Insn) (rest : List Grant)
    (h : host.Exchange [] host' granted) :
    host.Exchange (slot.grants ++ rest) (Grant.releaseAll slot.grants host') (granted ++ rest) := by
  apply (h.frame (slot.grants ++ rest)).trans
  refine ((Grant.releaseAll_exchange slot.grants host').frame (granted ++ rest)).perm ?_ (.refl _)
  exact List.perm_append_comm_assoc _ _ _

theorem not_refusedIn_of_neverRefuses (hfree : (host.provider session.provider).NeverRefuses) :
    ¬ RefusedIn session host code address slots error := by
  intro h
  induction h with
  | here hhead hrefuses => exact not_refuses_of_neverRefuses hfree _ _ hrefuses
  | @later host host' code address insn error slot slots hnext _ ih =>
    have hturn := session.next_turn host code address
    rw [hnext] at hturn
    cases hturn with
    | record _ _ hexchange => exact ih ((exchange_overwrite slot [] hexchange).neverRefuses hfree)

section Turns

variable {decoded : Decoded} {records : List Insn}

theorem not_refusedIn_of_stop (h : session.decodeHead code address = none) :
    ¬ RefusedIn session host code address slots error := by
  intro hrefused
  cases hrefused with
  | here hhead =>
    rw [h] at hhead
    cases hhead
  | later hnext =>
    have hturn := session.next_turn host code address
    rw [hnext] at hturn
    cases hturn with
    | record hhead =>
      rw [h] at hhead
      cases hhead

theorem refusedIn_iff_of_refused (hhead : session.decodeHead code address = some decoded)
    (hrefuses : session.Refuses host decoded error)
    (hnext : session.next host code address = (.error error, host')) (other : Error) :
    RefusedIn session host code address (slot :: slots) other ↔ other = error := by
  constructor
  · intro hrefused
    cases hrefused with
    | here hsome hother =>
      rw [hhead] at hsome
      cases hsome
      exact refuses_unique hother hrefuses
    | later hsome =>
      rw [hnext] at hsome
      cases hsome
  · intro heq
    rw [heq]
    exact .here hhead hrefuses

theorem refusedIn_iff_of_record (hhead : session.decodeHead code address = some decoded)
    (hgranted : ∀ error, ¬ session.Refuses host decoded error)
    (hnext : session.next host code address = (.ok (some insn), host')) :
    RefusedIn session host code address (slot :: slots) error ↔
      RefusedIn session (Grant.releaseAll slot.grants host') (code.drop insn.size.toNat)
        (address + insn.size.toUInt64) slots error := by
  constructor
  · intro hrefused
    cases hrefused with
    | here hsome hrefuses =>
      rw [hhead] at hsome
      cases hsome
      exact absurd hrefuses (hgranted error)
    | later hsome hrest =>
      rw [hnext] at hsome
      cases hsome
      exact hrest
  · exact .later hnext

theorem fills_nothing (host : Host) (slots : List Insn) (hrecords : records = [] ∨ slots = [])
    {refused : Error → Prop} (hnone : ∀ error, ¬ refused error) :
    Fills host records slots refused ⟨[], slots, none⟩ host := by
  refine ⟨List.nil_prefix, rfl, Nat.zero_le _, ?_, ?_, .refl host _⟩
  · intro _
    rcases hrecords with rfl | rfl
    · exact List.take_nil.symm
    · rfl
  · intro error
    constructor
    · intro h
      cases h
    · intro h
      exact absurd h (hnone error)

theorem fills_refused (hexchange : host.Exchange [] host' []) {refused : Error → Prop}
    (hrefused : ∀ other, refused other ↔ other = error) :
    Fills host records slots refused ⟨[], slots, some error⟩ host' := by
  refine ⟨List.nil_prefix, rfl, Nat.zero_le _, ?_, ?_, hexchange.frame _⟩
  · intro h
    cases h
  · intro other
    rw [hrefused, Option.some.injEq]
    exact eq_comm

theorem fills_record (hexchange : host.Exchange [] host' insn.grants) {filled : Filled}
    {host'' : Host} {refused later : Error → Prop} (hrefused : ∀ error, refused error ↔ later error)
    (h : Fills (Grant.releaseAll slot.grants host') records slots later filled host'') :
    Fills host (insn :: records) (slot :: slots) refused
      { filled with produced := insn :: filled.produced } host'' := by
  refine ⟨?_, ?_, ?_, ?_, fun error => (h.refused error).trans (hrefused error).symm, ?_⟩
  · exact List.cons_prefix_cons.2 ⟨rfl, h.produced⟩
  · simpa using h.untouched
  · simpa using h.fits
  · intro herror
    simp [h.complete herror]
  · apply (exchange_overwrite slot (Insn.allGrants slots) hexchange).trans
    exact (h.exchange.frame _).perm List.perm_append_comm List.perm_append_comm

end Turns

theorem fill_spec (hkeep : session.backend.KeepsSize) (writer : Provider) (slots : List Insn)
    (host : Host) (code : List UInt8) (address : UInt64)
    (hwriter : (host.provider session.provider).SameHand writer) :
    Fills host (session.records writer code address) slots
      (RefusedIn session host code address slots)
      (session.fill host code address slots).1 (session.fill host code address slots).2 := by
  induction slots generalizing host code address with
  | nil =>
    apply fills_nothing host [] (.inr rfl)
    intro error h
    cases h
  | cons slot slots ih =>
    have hturn := session.next_turn host code address
    cases hnext : session.next host code address with
    | mk answer host' =>
      rw [hnext] at hturn
      cases hturn with
      | stop hhead =>
        rw [fill_stop hhead, records_of_none hhead]
        exact fills_nothing host _ (.inl rfl) fun _ => not_refusedIn_of_stop hhead
      | refused hhead hrefuses hexchange =>
        rw [fill_refused (decodeHead_bounds hhead).2.2 hnext]
        exact fills_refused hexchange (refusedIn_iff_of_refused hhead hrefuses hnext)
      | @record decoded _ hhead hgranted hexchange =>
        have hsize : (session.record writer code decoded).size = decoded.size :=
          size_record hkeep decoded
        rw [record_sameHand hwriter] at hnext hexchange
        rw [fill_record (decodeHead_bounds hhead).2.2 hnext, records_of_some hhead, hsize]
        have hreset := (exchange_overwrite slot [] hexchange).reset session.provider
        have hrest := ih (Grant.releaseAll slot.grants host') (code.drop decoded.size.toNat)
          (address + decoded.size.toUInt64) ((Provider.SameHand.of_reset hreset).trans hwriter)
        refine fills_record hexchange ?_ hrest
        intro error
        rw [← hsize]
        exact refusedIn_iff_of_record hhead hgranted hnext

/-- Where nothing is refused, the slots and the records alone set the end. -/
theorem fill_of_neverRefuses (hkeep : session.backend.KeepsSize)
    (hfree : (host.provider session.provider).NeverRefuses) (code : List UInt8)
    (address : UInt64) (slots : List Insn) :
    let written :=
      (session.records (host.provider session.provider) code address).take slots.length
    (session.fill host code address slots).1 = ⟨written, slots.drop written.length, none⟩ := by
  have hfills := fill_spec hkeep (host.provider session.provider) slots host code address
    fun _ _ => rfl
  intro written
  cases hfilled : (session.fill host code address slots).1 with
  | mk produced untouched error =>
    rw [hfilled] at hfills
    have herror : error = none := by
      cases error with
      | none => rfl
      | some error =>
        exact absurd ((hfills.refused error).1 rfl) (not_refusedIn_of_neverRefuses hfree)
    have hproduced : produced = written := hfills.complete herror
    have huntouched : untouched = slots.drop produced.length := hfills.untouched
    rw [huntouched, hproduced, herror]

theorem produced_eq_take (hkeep : session.backend.KeepsSize)
    (hfree : (host.provider session.provider).NeverRefuses) (code : List UInt8)
    (address : UInt64) (slots : List Insn) :
    (session.disasm host code address slots).1.produced =
      (session.records (host.provider session.provider) code address).take slots.length :=
  congrArg Filled.produced (fill_of_neverRefuses hkeep hfree code address slots)

theorem produced_of_neverRefuses (hkeep : session.backend.KeepsSize)
    (hfree : (host.provider session.provider).NeverRefuses)
    (hslots : code.length ≤ slots.length) :
    (session.disasm host code address slots).1.produced =
      session.records (host.provider session.provider) code address := by
  have hlength := session.length_records_le (p := host.provider session.provider) code address
  rw [produced_eq_take hkeep hfree]
  exact List.take_of_length_le (by omega)

end Session

end Disassembly
