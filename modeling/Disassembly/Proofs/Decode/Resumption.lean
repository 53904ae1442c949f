import Disassembly.Proofs.Decode.Fixed
import Disassembly.Proofs.Decode.Tiling
import Disassembly.Proofs.Family.Combiners
/-!
# Decoding that is taken up again

A fixed decode that ended, for whatever reason, can be taken up behind the bytes that its records
cover. Both calls together write what one call with all the slots writes.
-/
namespace Disassembly.Session

open CommandLine (coveredBytes)

variable {session : Session} {host host' : Host} {code : List UInt8} {address : UInt64}
  {slots more all : List Insn}

/-- The records behind the first `k` are the records of the code that those leave over. -/
theorem drop_records (hkeep : session.backend.KeepsSize) (writer : Provider) (code : List UInt8)
    (address : UInt64) (k : Nat) :
    (session.records writer code address).drop k =
      session.records writer
        (code.drop (coveredBytes ((session.records writer code address).take k)))
        (address + (coveredBytes ((session.records writer code address).take k)).toUInt64) := by
  induction code, address using session.decode_induction generalizing k with
  | stop code address hnone => simp [records_of_none hnone]
  | step code address decoded hsome ih =>
    cases k with
    | zero => simp
    | succ k =>
      rw [records_of_some hsome, List.drop_succ_cons, List.take_succ_cons, coveredBytes_cons,
        size_record hkeep, add_covered, ← List.drop_drop]
      exact ih k

theorem records_lastError (session : Session) (error : Option Error) (writer : Provider)
    (code : List UInt8) (address : UInt64) :
    ({ session with lastError := error } : Session).records writer code address =
      session.records writer code address := by
  induction code, address using session.decode_induction with
  | stop code address hnone =>
    have hsame : ({ session with lastError := error } : Session).decodeHead code address = none :=
      hnone
    rw [records_of_none hnone, records_of_none hsame]
  | step code address decoded hsome ih =>
    have hsame : ({ session with lastError := error } : Session).decodeHead code address =
      some decoded := hsome
    rw [records_of_some hsome, records_of_some hsame, ih]
    rfl

theorem produced_lastError (hkeep : session.backend.KeepsSize)
    (hfree : (host.provider session.provider).NeverRefuses) (error : Option Error)
    (code : List UInt8) (address : UInt64) (slots : List Insn) :
    (({ session with lastError := error } : Session).disasm host code address slots).1.produced =
      (session.records (host.provider session.provider) code address).take slots.length := by
  have hkeep' : ({ session with lastError := error } : Session).backend.KeepsSize := hkeep
  rw [← records_lastError session error]
  exact produced_eq_take hkeep' hfree code address slots

/-- A fixed decode leaves every provider the rule by which it grants. -/
theorem disasm_reset (hkeep : session.backend.KeepsSize) (host : Host) (code : List UInt8)
    (address : UInt64) (slots : List Insn) (id : ProviderId) :
    ((session.disasm host code address slots).2.2.provider id).reset = (host.provider id).reset :=
  (fill_spec hkeep (host.provider session.provider) slots host code address
    fun _ _ => rfl).exchange.reset id

/-- One call with all the slots writes what a first call writes with some of them, and behind it
what a later call writes with the others into which the first call left over. The provider may be
in any state at each of the calls, and in that in which the first call left it. -/
theorem disasm_resumes (hkeep : session.backend.KeepsSize)
    (hfree : (host.provider session.provider).NeverRefuses)
    (hsame : (host'.provider session.provider).reset = (host.provider session.provider).reset)
    (hslots : all.length = slots.length + more.length) (code : List UInt8) (address : UInt64) :
    let first := session.disasm host code address slots
    let covered := coveredBytes first.1.produced
    (first.2.2.provider session.provider).reset = (host.provider session.provider).reset ∧
      ∀ later : Host,
        (later.provider session.provider).reset = (host.provider session.provider).reset →
        (session.disasm host' code address all).1.produced = first.1.produced ++
          (first.2.1.disasm later (code.drop covered) (address + covered.toUInt64)
            more).1.produced := by
  intro first covered
  refine ⟨disasm_reset hkeep host code address slots session.provider, ?_⟩
  intro later hlater
  have hfree' : (host'.provider session.provider).NeverRefuses :=
    fun other hother => hfree other (hother.trans hsame)
  have hfreeLater : (later.provider session.provider).NeverRefuses :=
    fun other hother => hfree other (hother.trans hlater)
  let writer := host.provider session.provider
  have hall : (session.disasm host' code address all).1.produced =
      (session.records writer code address).take (slots.length + more.length) := by
    rw [produced_eq_take hkeep hfree', hslots, records_sameHand (.of_reset hsame)]
  have hfirst : first.1.produced = (session.records writer code address).take slots.length :=
    produced_eq_take hkeep hfree code address slots
  have hmore : (first.2.1.disasm later (code.drop covered) (address + covered.toUInt64)
      more).1.produced = (session.records writer (code.drop covered)
        (address + covered.toUInt64)).take more.length := by
    rw [← records_sameHand (.of_reset hlater)]
    exact produced_lastError hkeep hfreeLater first.1.error _ _ more
  have hdrop := drop_records hkeep writer code address slots.length
  rw [← hfirst] at hdrop
  rw [hall, hmore, ← hdrop, List.take_add, hfirst]

/-- A session at the end of the address space: a call with one slot is taken up at address one,
behind the prefix, and goes on to the byte that cannot be decoded. -/
theorem disasm_resumes_past_last_address :
    let session := { Toy.session 0 with detail := true }
    let host : Host := { providers := [.tracking {}] }
    let code : List UInt8 := [0xf0, 0x0f, 0x90, 0x01, 0x02, 0xee, 0x90]
    session.backend.KeepsSize ∧ (host.provider session.provider).NeverRefuses ∧
      coveredBytes (session.disasm host code (0 - 1) [{}]).1.produced = 2 ∧
      (session.disasm host code (0 - 1) (List.replicate 4 {})).1.produced =
        (session.disasm host code (0 - 1) [{}]).1.produced ++
          (session.disasm host [0x90, 0x01, 0x02, 0xee, 0x90] 1 [{}, {}, {}]).1.produced := by
  intro session host code
  have hkeep : session.backend.KeepsSize := Toy.keepsPlace_backend.keepsSize
  have hfree : (host.provider session.provider).NeverRefuses :=
    Provider.neverRefuses_unlimited rfl
  have hcovered : coveredBytes (session.disasm host code (0 - 1) [{}]).1.produced = 2 := by
    decide +kernel
  refine ⟨hkeep, hfree, hcovered, ?_⟩
  have hslots : (List.replicate 4 ({} : Insn)).length =
      [({} : Insn)].length + [({} : Insn), {}, {}].length := rfl
  have hresumes := (disasm_resumes hkeep hfree rfl hslots code (0 - 1)).2 host rfl
  rw [hcovered] at hresumes
  exact hresumes

end Disassembly.Session
