import Disassembly.Proofs.Decode.Dynamic
import Disassembly.Proofs.Family.Hooks
import Mathlib.Data.List.Chain
/-!
# Nothing is left to combine

A record is offered once, to the record before it as that one was then. What x86 makes of two
records is neither a `wait` nor a form that does not wait, so that combining opens no new chance to
combine: of the records of a dynamic decode no two neighbours would be fused, and combining them
all once more changes nothing.
-/
namespace Disassembly

namespace X86

def Apart (last insn : Insn) : Prop := combine insn (some last) = .apart insn (some last)

theorem mem_waitForms {mnemonic waiting : String} (h : waitingForm? mnemonic = some waiting) :
    (mnemonic, waiting) ∈ waitForms := by
  obtain ⟨form, hfind, rfl⟩ := Option.map_eq_some_iff.1 h
  have hmatches : form.1 = mnemonic := by simpa using List.find?_some hfind
  exact hmatches ▸ List.mem_of_find?_eq_some hfind

theorem waitingForm?_waiting {mnemonic waiting : String}
    (h : waitingForm? mnemonic = some waiting) :
    waitingForm? (Field.ofText mnemonicLen waiting).text = none := by
  have hforms : ∀ form ∈ waitForms,
      waitingForm? (Field.ofText mnemonicLen form.2).text = none := by
    decide +kernel
  exact hforms (mnemonic, waiting) (mem_waitForms h)

theorem combine_none (insn : Insn) : combine insn none = .apart insn none := by
  unfold combine
  split
  · next hlast => cases hlast
  · rfl

theorem apart_of_waitingForm? {insn : Insn} (h : waitingForm? insn.mnemonic.text = none)
    (last : Insn) : Apart last insn := by
  unfold Apart combine
  rw [h]

/-- A fused record is not fused again with the record before it. -/
theorem Fused.apart {old insn new : Insn} (h : Fused old insn new) (last : Insn) :
    Apart last new := by
  obtain ⟨mnemonic, hform, -, rfl⟩ := h
  have hnew : (fused old insn mnemonic).mnemonic = Field.ofText mnemonicLen mnemonic := rfl
  apply apart_of_waitingForm?
  rw [hnew]
  exact waitingForm?_waiting hform

end X86

namespace Backend

open X86 (Apart)

variable {backend : Backend} {insns rest : List Insn}

/-- One more record, appended or fused with the last one, leaves no two neighbours to fuse. -/
theorem apart_offerTo (hcombine : backend.combine = X86.combine) (h : insns.IsChain Apart)
    (insn : Insn) : (backend.offerTo insns insn).IsChain Apart := by
  have hoffered := offerTo_offered (fusesBy_x86 hcombine) insns insn
  generalize backend.offerTo insns insn = offered at hoffered
  cases hoffered with
  | apart hapart =>
    refine List.isChain_append.2 ⟨h, List.isChain_singleton insn, ?_⟩
    intro last hlast other hother
    rw [List.head?_cons, Option.mem_some_iff] at hother
    rw [Option.mem_def.1 hlast, hcombine, hother] at hapart
    exact hapart
  | @fused init old new hinsns hfused =>
    rw [hinsns] at h
    refine List.isChain_append.2 ⟨h.left_of_append, List.isChain_singleton new, ?_⟩
    intro last _ other hother
    rw [List.head?_cons, Option.mem_some_iff] at hother
    exact hother ▸ hfused.apart last

theorem foldl_offerTo_of_apart (hcombine : backend.combine = X86.combine)
    (h : (insns ++ rest).IsChain Apart) : rest.foldl backend.offerTo insns = insns ++ rest := by
  induction rest generalizing insns with
  | nil => simp
  | cons insn rest ih =>
    have hapart : backend.combine insn insns.getLast? = .apart insn insns.getLast? := by
      rw [hcombine]
      cases hlast : insns.getLast? with
      | none => exact X86.combine_none insn
      | some last => exact (List.isChain_append.1 h).2.2 last hlast insn rfl
    have hoffer : backend.offerTo insns insn = insns ++ [insn] := by
      simp [offerTo, hapart, Offer.apart, Insn.withLast_getLast?]
    rw [List.foldl_cons, hoffer, ih (by simpa using h)]
    simp

end Backend

namespace Session

open X86 (Apart)

variable {session : Session} {plain : Backend}

/-- What an x86 session returns from a dynamic decode, capped or not, is a normal form of
combining: no record is folded into the one before it, and a second pass over all of them returns
them unchanged. -/
theorem combining_is_done (hx86 : session.backend = plain.likeX86) (host : Host)
    (code : List UInt8) (address : UInt64) (count : Nat) :
    ((host.provider session.provider).NeverRefuses → code.length ≤ maxRecords →
      ∃ instructions, (session.disasmAll host code address count).1 = .ok instructions) ∧
    ∀ instructions, (session.disasmAll host code address count).1 = .ok instructions →
      (∀ i last insn, instructions.insns[i]? = some last →
        instructions.insns[i + 1]? = some insn →
        (session.backend.combine insn (some last)).folded = false) ∧
      instructions.insns.foldl session.backend.offerTo [] = instructions.insns := by
  have hkeep : session.backend.KeepsSize := hx86 ▸ plain.standard_likeX86.keepsSize
  have hcombine : session.backend.combine = X86.combine := by rw [hx86, Backend.likeX86]
  refine ⟨exists_disasmAll hkeep, ?_⟩
  intro instructions hok
  -- Every offer leaves neighbours that are not fused, and so does the last one.
  have happart : instructions.insns.IsChain Apart := by
    rw [insns_of_returned hkeep hok]
    obtain ⟨-, hchain⟩ := Backend.offerUpTo_keeps (motive := fun insns _ => insns.IsChain Apart)
      (fun _ insn _ h => Backend.apart_offerTo hcombine h insn) count .nil
    exact hchain
  refine ⟨?_, Backend.foldl_offerTo_of_apart hcombine happart⟩
  intro i last insn hlast hinsn
  obtain ⟨hlt, rfl⟩ := List.getElem?_eq_some_iff.1 hinsn
  obtain ⟨-, rfl⟩ := List.getElem?_eq_some_iff.1 hlast
  have hneighbours := List.isChain_iff_getElem.1 happart i hlt
  rw [hcombine, hneighbours, Offer.apart]

/-- Two times `wait` and a form that does not wait, of which the last two are one instruction. -/
theorem combining_is_done_wait_wait :
    let decoder : Decoder :=
      { Decoder.silent with
        decode := fun _ code _ =>
          if code.head? = some 0x9b then some ⟨1, 1, "wait", "", none⟩
          else some ⟨2, 2, "fnstsw", "ax", none⟩ }
    let session := { Toy.session 0 with backend := Arch.x86.backend decoder }
    (∃ plain : Backend, session.backend = plain.likeX86) ∧
      ∃ instructions, (session.disasmAll {} [0x9b, 0x9b, 0xdf, 0xe0] 0 0).1 = .ok instructions ∧
        instructions.insns.map (fun insn => insn.mnemonic.text) = ["wait", "fstsw"] ∧
        instructions.insns.foldl session.backend.offerTo [] = instructions.insns := by
  intro decoder session
  obtain ⟨plain, hx86⟩ := Arch.exists_likeX86 decoder
  obtain ⟨hreturns, hdone⟩ :=
    @combining_is_done session plain hx86 {} [0x9b, 0x9b, 0xdf, 0xe0] 0 0
  obtain ⟨instructions, hok⟩ := hreturns Provider.neverRefuses_system (by decide)
  have htexts : ((session.disasmAll {} [0x9b, 0x9b, 0xdf, 0xe0] 0 0).1.toOption.map
      fun instructions => instructions.insns.map fun insn => insn.mnemonic.text) =
        some ["wait", "fstsw"] := by
    decide +kernel
  rw [hok] at htexts
  exact ⟨⟨plain, hx86⟩, instructions, hok, Option.some.inj htexts, (hdone instructions hok).2⟩

end Session

end Disassembly
