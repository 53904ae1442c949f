import Disassembly.Proofs.Decode.Dynamic
import Disassembly.Proofs.Decode.Fixed
import Disassembly.Proofs.Family.Combiners
/-!
# Decoding under memory pressure

A provider that refuses some requests is compared with one that refuses none and writes text the
same way. Refusals can only abort a dynamic decode, which then gives back all it took, or end a
fixed decode early. No record comes out differently.
-/
namespace Disassembly.Session

variable {session : Session} {host free : Host} {code : List UInt8} {address : UInt64}
  {count : Nat}

/-- A dynamic decode that was not aborted returns what it returns where nothing is refused. -/
theorem insns_of_ok {instructions : Instructions} {host' : Host}
    (hkeep : session.backend.KeepsSize)
    (hfree : (free.provider session.provider).NeverRefuses)
    (hwriter : (host.provider session.provider).SameHand (free.provider session.provider))
    (h : session.collect host code address count = (.ok instructions, host')) :
    ∃ others free', session.collect free code address count = (.ok others, free') ∧
      others.insns = instructions.insns := by
  have hlimited := collect_collected hkeep (free.provider session.provider) host code address count
    hwriter
  have hunlimited := collect_collected hkeep (free.provider session.provider) free code address
    count fun _ _ => rfl
  rw [h] at hlimited
  cases hcollect : session.collect free code address count with
  | mk result free' =>
    rw [hcollect] at hunlimited
    cases hlimited with
    | all hpaid _ =>
      cases hunlimited with
      | all => exact ⟨_, _, rfl, rfl⟩
      | nothing _ hlimit => exact absurd hpaid.fits (Nat.not_le_of_gt (hlimit hfree).2)

/-- Whatever a provider refuses, a dynamic decode is whole or leaves nothing behind, and a fixed
decode is a beginning that reports the refusal which ended it. Where nothing is refused a dynamic
decode is whole. -/
theorem refusals_only_truncate (hkeep : session.backend.KeepsSize)
    (hfree : (free.provider session.provider).NeverRefuses)
    (hwriter : (host.provider session.provider).SameHand (free.provider session.provider))
    (code : List UInt8) (address : UInt64) (count : Nat) (slots : List Insn) :
    (match session.disasmAll host code address count with
      | (.ok instructions, after, _) => after.lastError = none ∧
        ∃ others, (session.disasmAll free code address count).1 = .ok others ∧
          others.insns = instructions.insns
      | (.error error, after, host') => after.lastError = some error ∧
        ∀ id, (host'.provider id).liveBytes = (host.provider id).liveBytes ∧
          (host'.provider id).liveBlocks = (host.provider id).liveBlocks) ∧
    (match session.disasm host code address slots with
      | (filled, after, _) =>
        filled.produced <+: (session.disasm free code address slots).1.produced ∧
          (after.lastError = none ↔ ∀ error, ¬ RefusedIn session host code address slots error) ∧
          (∀ error, after.lastError = some error ↔
            RefusedIn session host code address slots error) ∧
          (after.lastError = none →
            filled.produced = (session.disasm free code address slots).1.produced)) ∧
    ((host.provider session.provider).NeverRefuses → code.length ≤ maxRecords →
      ∃ instructions, (session.disasmAll host code address count).1 = .ok instructions) := by
  refine ⟨?_, ?_, exists_disasmAll hkeep⟩
  · unfold disasmAll
    cases hcollect : session.collect host code address count with
    | mk result host' =>
      cases result with
      | ok instructions =>
        obtain ⟨others, free', hother, hinsns⟩ := insns_of_ok hkeep hfree hwriter hcollect
        exact ⟨rfl, others, by rw [hother], hinsns⟩
      | error error =>
        refine ⟨rfl, ?_⟩
        intro id
        rw [Host.provider_note]
        exact (collect_error hkeep hcollect).counters_eq id
  -- Both decodes are measured against one list of records, written by the free provider.
  · have hlimited := fill_spec hkeep (free.provider session.provider) slots host code address
      hwriter
    rw [produced_eq_take hkeep hfree]
    unfold disasm
    dsimp only
    refine ⟨?_, ?_, hlimited.refused, hlimited.complete⟩
    · exact List.prefix_take_iff.2 ⟨hlimited.produced, hlimited.fits⟩
    · simp only [Option.eq_none_iff_forall_ne_some, Ne, hlimited.refused]

/-- A provider with room for the first of two payloads, of which an aborted decode keeps none. -/
theorem refusals_only_truncate_toy :
    let session := { Toy.session 0 with detail := true }
    let host : Host := { providers := [.tracking { policy := .limit 216 }] }
    let free : Host := { providers := [.tracking {}] }
    session.backend.KeepsSize ∧ (free.provider session.provider).NeverRefuses ∧
      (host.provider session.provider).SameHand (free.provider session.provider) ∧
      (session.disasm host [0x90, 0x01, 0x02] 0 [{}, {}]).1.produced.length = 1 ∧
      RefusedIn session host [0x90, 0x01, 0x02] 0 [{}, {}] .outOfMemory ∧
      (session.disasmAll host [0x90, 0x01, 0x02] 0 0).2.1.lastError = some .outOfMemory ∧
      ((session.disasmAll host [0x90, 0x01, 0x02] 0 0).2.2.provider 0).liveBytes = 0 ∧
      ∃ instructions,
        (session.disasmAll free [0x90, 0x01, 0x02] 0 0).1 = .ok instructions := by
  intro session host free
  have hkeep : session.backend.KeepsSize := Toy.keepsPlace_backend.keepsSize
  have hfree : (free.provider session.provider).NeverRefuses :=
    Provider.neverRefuses_unlimited rfl
  have hwriter : (host.provider session.provider).SameHand (free.provider session.provider) :=
    .of_writes (fun _ _ => rfl) fun _ _ => rfl
  obtain ⟨haborted, htruncated, -⟩ :=
    refusals_only_truncate hkeep hfree hwriter [0x90, 0x01, 0x02] 0 0 [{}, {}]
  obtain ⟨-, -, hreturns⟩ := refusals_only_truncate hkeep hfree (fun _ _ => rfl)
    [0x90, 0x01, 0x02] 0 0 []
  have hrefused : (session.disasmAll host [0x90, 0x01, 0x02] 0 0).2.1.lastError =
      some .outOfMemory := by
    decide +kernel
  refine ⟨hkeep, hfree, hwriter, by decide +kernel,
    (htruncated.2.2.1 .outOfMemory).1 (by decide +kernel), hrefused, ?_,
    hreturns hfree (by decide)⟩
  cases hrun : session.disasmAll host [0x90, 0x01, 0x02] 0 0 with
  | mk result rest =>
    rw [hrun] at haborted hrefused
    cases result with
    | ok instructions =>
      rw [haborted.1] at hrefused
      cases hrefused
    | error error => exact (haborted.2 0).1

end Disassembly.Session
