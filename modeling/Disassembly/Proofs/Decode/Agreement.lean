import Disassembly.Proofs.Decode.Dynamic
import Disassembly.Proofs.Decode.Fixed
import Disassembly.Proofs.Family.Hooks
/-!
# The two decodes agree

Where no request is refused, a dynamic decode returns what combining makes of the records of a
fixed decode, one after the other and in one list. Chunks are nowhere to be seen in it.
-/
namespace Disassembly.Session

variable {session : Session} {host host' : Host} {code : List UInt8} {address : UInt64}
  {slots : List Insn}

/-- A dynamic decode returns the fold over the records of a fixed decode with a slot for every
byte, in any two states of a provider that never refuses. With a collaborator that never folds it
returns as many records, each as combining left it. They are the same ones if combining leaves alone
what it does not fold, as it does in every family. -/
theorem disasmAll_eq_fold (hkeep : session.backend.KeepsSize)
    (hfree : (host.provider session.provider).NeverRefuses)
    (hsame : (host'.provider session.provider).reset = (host.provider session.provider).reset)
    (hslots : code.length ≤ slots.length) :
    let records := (session.disasm host code address slots).1.produced
    let reached count := if count = 0 then records else records.take count
    (session.disasmAll host' code address 0).1.map Instructions.insns =
        regionOf (records.foldl session.backend.offerTo []) ∧
      (∀ count, 0 < count → (session.disasmAll host' code address count).1.map Instructions.insns =
        regionOf (session.backend.offerUpTo count [] records)) ∧
      (session.backend.NeverFolds → ∀ count,
        (session.backend.offerUpTo count [] records).length = (reached count).length ∧
        (session.backend.LeavesUnfolded →
          (session.disasmAll host' code address count).1.map Instructions.insns =
            regionOf (reached count))) ∧
      (∀ arch decoder, (Arch.backend arch decoder).LeavesUnfolded) ∧ Toy.backend.LeavesUnfolded ∧
        ∀ family : RuleFamily, family.backend.LeavesUnfolded := by
  have hfree' : (host'.provider session.provider).NeverRefuses :=
    fun later hlater => hfree later (hlater.trans hsame)
  intro records reached
  have hrecords : session.records (host'.provider session.provider) code address = records :=
    (records_sameHand (.of_reset hsame) code address).trans
      (produced_of_neverRefuses hkeep hfree hslots).symm
  have hinsns : ∀ count, (session.disasmAll host' code address count).1.map Instructions.insns =
      regionOf (session.backend.offerUpTo count [] records) := fun count =>
    hrecords ▸ insns_of_neverRefuses hkeep hfree' code address count
  have hstart : ∀ count, count = 0 ∨ ([] : List Insn).length < count := fun count =>
    count.eq_zero_or_pos
  refine ⟨?_, ?_, ?_, ?_, Toy.standard_backend.leavesUnfolded,
    RuleFamily.leavesUnfolded_backend⟩
  · rw [hinsns, Backend.offerUpTo_zero]
  · intro count _
    exact hinsns count
  · intro hnever count
    constructor
    · rw [Backend.length_offerUpTo hnever count [] records (hstart count)]
      exact Nat.zero_add _
    · intro hleaves
      rw [hinsns, Backend.offerUpTo_apart hnever hleaves count [] records (hstart count)]
      rfl
  · exact fun arch decoder => (arch.standard_backend decoder).leavesUnfolded

/-- A prefix that ends the first chunk fuses with the instruction behind it, and in a family that
never folds both decodes return the same. -/
theorem disasmAll_eq_fold_across_chunks :
    Toy.backend.KeepsSize ∧ (({} : Host).provider 0).NeverRefuses ∧
      (((Toy.session 0).disasmAll {} (List.replicate 63 0x90 ++ [0xf0, 0x0f, 0x90]) 0 0).1.map
        Instructions.insns).toOption.map (List.map fun insn => (insn.size, insn.mnemonic.text)) =
          some (List.replicate 63 (1, "nop") ++ [(3, "pfx.nop")]) ∧
      ∀ (decoder : Decoder) (code : List UInt8),
        let session := { Toy.session 0 with backend := Arch.arm.backend decoder }
        session.backend.NeverFolds ∧
          (session.disasmAll {} code 0 0).1.map Instructions.insns =
            regionOf (session.disasm {} code 0 (List.replicate code.length {})).1.produced := by
  have hkeep : (Toy.session 0).backend.KeepsSize := Toy.keepsPlace_backend.keepsSize
  have hfree : (({} : Host).provider (Toy.session 0).provider).NeverRefuses :=
    Provider.neverRefuses_system
  have hslots : (List.replicate 63 0x90 ++ [0xf0, 0x0f, 0x90] : List UInt8).length ≤
      (List.replicate 66 (default : Insn)).length := by decide
  refine ⟨hkeep, hfree, ?_, ?_⟩
  · rw [(disasmAll_eq_fold hkeep hfree rfl hslots).1]
    decide +kernel
  · intro decoder code session
    have hnever : session.backend.NeverFolds := fun _ _ => rfl
    have hsize : session.backend.KeepsSize := (Arch.arm.keepsPlace_backend decoder).keepsSize
    have hroom : code.length ≤ (List.replicate code.length ({} : Insn)).length := by simp
    have hleaves := (Arch.arm.standard_backend decoder).leavesUnfolded
    exact ⟨hnever, ((disasmAll_eq_fold hsize hfree rfl hroom).2.2.1 hnever 0).2 hleaves⟩

/-- A collaborator that folds nothing and still changes each record that it is offered. -/
def renumbering : Backend :=
  { Toy.backend with
    combine := fun insn last => .apart { insn with id := 7 } last
    grants_combine := fun insn last => Offer.perm_apart { insn with id := 7 } last
    isSome_combine := fun _ _ => rfl }

/-- Not to fold is not to leave alone: the two decodes return different records. -/
theorem decodes_differ_without_folding :
    let session := { Toy.session 0 with backend := renumbering }
    session.backend.KeepsSize ∧ (({} : Host).provider session.provider).NeverRefuses ∧
      session.backend.NeverFolds ∧
      (session.disasm {} [0x90] 0 [{}]).1.produced.map Insn.id = [101] ∧
      ((session.disasmAll {} [0x90] 0 0).1.map Instructions.insns).toOption.map
        (List.map Insn.id) = some [7] := by
  intro session
  exact ⟨fun _ _ => rfl, Provider.neverRefuses_system, fun _ _ => rfl, by decide +kernel,
    by decide +kernel⟩

end Disassembly.Session
