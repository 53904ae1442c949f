import Disassembly.Proofs.Decode.Along
import Disassembly.Proofs.Decode.Flat
import Disassembly.Proofs.Decode.Records
/-!
# Records that tile their code

The records of a code lie one directly behind the other, and cover it up to the first place that
cannot be decoded. Combining keeps this as long as it either leaves two records alone or makes one
of both that covers what they covered. Addresses wrap, sizes do not.
-/
namespace Disassembly

open CommandLine (coveredBytes)

/-- Records that lie one directly behind the other from an address on, none of them empty. -/
def Tiles (address : UInt64) : List Insn → Prop
  | [] => True
  | insn :: rest =>
    insn.address = address ∧ insn.size ≠ 0 ∧ Tiles (address + insn.size.toUInt64) rest

section Covered

variable {address : UInt64} {insn old new : Insn} {insns rest : List Insn} {i : Nat}

theorem tiles_iff_along (code : List UInt8) : Tiles address insns ↔
    Along (fun _ address insn => insn.address = address ∧ insn.size ≠ 0) code address insns := by
  induction insns generalizing address code with
  | nil => exact Iff.rfl
  | cons insn insns ih => rw [Tiles, Along, ih, and_assoc]

theorem tiles_append : Tiles address (insns ++ rest) ↔
    Tiles address insns ∧ Tiles (address + (coveredBytes insns).toUInt64) rest := by
  rw [tiles_iff_along [], along_append, ← tiles_iff_along, ← tiles_iff_along]

theorem tiles_join (h : Tiles address (insns ++ old :: insn :: rest))
    (haddress : new.address = old.address)
    (hsize : new.size.toNat = old.size.toNat + insn.size.toNat) :
    Tiles address (insns ++ new :: rest) := by
  obtain ⟨hinsns, hold, hzero, -, -, hrest⟩ := tiles_append.1 h
  refine tiles_append.2 ⟨hinsns, haddress.trans hold, ?_, ?_⟩
  · have hpos : old.size.toNat ≠ 0 := fun hz => hzero (UInt16.toNat_inj.1 hz)
    intro hz
    rw [hz, UInt16.toNat_zero] at hsize
    omega
  · rwa [← toUInt64_toNat_size, hsize, add_covered, toUInt64_toNat_size]

theorem size_of_tiles (h : Tiles address insns) (hmem : insn ∈ insns) : 1 ≤ insn.size.toNat := by
  obtain ⟨before, rest, rfl⟩ := List.append_of_mem hmem
  obtain ⟨-, -, hzero, -⟩ := tiles_append.1 h
  have hpos : insn.size.toNat ≠ 0 := fun hz => hzero (UInt16.toNat_inj.1 hz)
  omega

theorem address_of_tiles (h : Tiles address insns) (hi : insns[i]? = some insn) :
    insn.address = address + (coveredBytes (insns.take i)).toUInt64 :=
  (holds_of_along ((tiles_iff_along []).1 h) hi).1

theorem tiles_of_append (h : Tiles address (insns ++ rest)) : Tiles address insns :=
  (tiles_append.1 h).1

end Covered

inductive Offer.Joins (insn : Insn) : Option Insn → Offer → Prop where
  | apart (last : Option Insn) : Joins insn last (.apart insn last)
  | joined {old new : Insn} {offer : Offer} : offer.folded = true → offer.last = some new →
      new.address = old.address → new.size.toNat = old.size.toNat + insn.size.toNat →
      Joins insn (some old) offer

namespace Backend

variable {backend : Backend} {address : UInt64} {insns rest : List Insn}

/-- The addresses that a decoder reports are those it was asked about. -/
def Echoes (backend : Backend) : Prop :=
  ∀ dialect code address detail decoded,
    backend.decode dialect code address detail = some decoded → decoded.address = address

def KeepsPlace (backend : Backend) : Prop :=
  ∀ insn text, (backend.correct insn text).insn.address = insn.address ∧
    (backend.correct insn text).insn.size = insn.size

def Joins (backend : Backend) : Prop :=
  ∀ insn last, Offer.Joins insn last (backend.combine insn last)

theorem KeepsPlace.keepsSize (h : backend.KeepsPlace) : backend.KeepsSize :=
  fun insn text => (h insn text).2

theorem tiles_offerTo (hjoins : backend.Joins) {insn : Insn}
    (h : Tiles address (insns ++ insn :: rest)) :
    Tiles address (backend.offerTo insns insn ++ rest) ∧
      coveredBytes (backend.offerTo insns insn) = coveredBytes insns + insn.size.toNat := by
  have hoffer := hjoins insn insns.getLast?
  cases hlast : insns.getLast? with
  | none =>
    rw [hlast] at hoffer
    have hnil := List.getLast?_eq_none_iff.1 hlast
    generalize hcombine : backend.combine insn none = offer at hoffer
    cases hoffer
    rw [hnil, (offerTo_nil backend insn).2, hcombine]
    rw [hnil] at h
    exact ⟨h, by simp [Offer.apart]⟩
  | some last =>
    rw [hlast] at hoffer
    obtain ⟨init, rfl⟩ := List.getLast?_eq_some_iff.1 hlast
    obtain ⟨kept, hkept, hoffered⟩ := offerTo_concat backend init last insn
    rw [hoffered]
    generalize backend.combine insn (some last) = offer at hoffer hkept ⊢
    cases hoffer with
    | apart =>
      cases hkept
      exact ⟨by simpa [Offer.apart] using h, by simp [Offer.apart, Nat.add_assoc]⟩
    | joined hfolded hnew haddress hsize =>
      rw [hnew] at hkept
      cases hkept
      rw [if_pos hfolded]
      refine ⟨?_, by simp [hsize, Nat.add_assoc]⟩
      rw [List.append_assoc] at h ⊢
      exact tiles_join h haddress hsize

theorem tiles_offerUpTo (hjoins : backend.Joins) (count : Nat) (insns rest : List Insn)
    (h : Tiles address (insns ++ rest)) :
    Tiles address (backend.offerUpTo count insns rest) ∧
      coveredBytes (backend.offerUpTo count insns rest) ≤ coveredBytes (insns ++ rest) ∧
      (count = 0 →
        coveredBytes (backend.offerUpTo count insns rest) = coveredBytes (insns ++ rest)) := by
  induction rest generalizing insns with
  | nil => simpa [offerUpTo] using h
  | cons insn rest ih =>
    obtain ⟨htiles, hcovered⟩ := tiles_offerTo hjoins h
    have hall : coveredBytes (backend.offerTo insns insn ++ rest) =
        coveredBytes (insns ++ insn :: rest) := by
      simp [hcovered, Nat.add_assoc]
    rw [offerUpTo, ← hall]
    split
    · next hfull =>
      refine ⟨tiles_of_append htiles, by simp, ?_⟩
      intro hzero
      omega
    · exact ih _ htiles

end Backend

namespace Session

variable {session : Session} {code : List UInt8} {address : UInt64} {writer : Provider} {n : Nat}

/-- What remains of a code cannot be decoded: there is nothing left, or the decoder has no answer,
or one that covers nothing or more than there is. -/
def Undecodable (session : Session) (code : List UInt8) (address : UInt64) : Prop :=
  code = [] ∨ session.backend.decode session.dialect code address session.detail = none ∨
    ∃ decoded, session.backend.decode session.dialect code address session.detail = some decoded ∧
      (decoded.size = 0 ∨ code.length < decoded.size.toNat)

theorem decodeHead_eq_none_iff :
    session.decodeHead code address = none ↔ session.Undecodable code address := by
  constructor
  · intro h
    unfold decodeHead at h
    split at h
    · next hnone => exact .inr (.inl hnone)
    · next decoded hsome =>
      split at h
      · next hsize => exact .inr (.inr ⟨decoded, hsome, hsize⟩)
      · cases h
  · rintro (rfl | hnone | ⟨decoded, hsome, hsize⟩)
    · exact decodeHead_nil
    · simp [decodeHead, hnone]
    · simp [decodeHead, hsome, hsize]

inductive StopsAt (session : Session) : List UInt8 → UInt64 → Nat → Prop where
  | here {code : List UInt8} {address : UInt64} : session.Undecodable code address →
      StopsAt session code address 0
  | later {code : List UInt8} {address : UInt64} {decoded : Decoded} {n : Nat} :
      session.decodeHead code address = some decoded →
      StopsAt session (code.drop decoded.size.toNat) (address + decoded.size.toUInt64) n →
      StopsAt session code address (decoded.size.toNat + n)

theorem StopsAt.le_length (h : StopsAt session code address n) : n ≤ code.length := by
  induction h with
  | here => exact Nat.zero_le _
  | later hhead _ ih =>
    have hle := (decodeHead_bounds hhead).2.1
    rw [List.length_drop] at ih
    omega

theorem StopsAt.unique {m : Nat} (h : session.StopsAt code address n)
    (k : session.StopsAt code address m) : n = m := by
  induction h generalizing m with
  | here hnone =>
    cases k with
    | here => rfl
    | later hhead _ =>
      rw [decodeHead_eq_none_iff.2 hnone] at hhead
      cases hhead
  | later hhead _ ih =>
    cases k with
    | here hnone =>
      rw [decodeHead_eq_none_iff.2 hnone] at hhead
      cases hhead
    | later hother hrest =>
      rw [hhead] at hother
      cases hother
      rw [ih hrest]

theorem StopsAt.undecodable (h : StopsAt session code address n) :
    session.Undecodable (code.drop n) (address + n.toUInt64) := by
  induction h with
  | here h => simpa using h
  | later _ _ ih => rwa [List.drop_drop, ← add_covered] at ih

theorem address_record (hecho : session.backend.Echoes) (hplace : session.backend.KeepsPlace)
    {decoded : Decoded} (h : session.decodeHead code address = some decoded) :
    (session.record writer code decoded).address = address := by
  rw [← hecho _ _ _ _ _ (decode_of_decodeHead h), record]
  simp only [Insn.ofDecoded, Insn.setOpStr, Insn.setMnemonic]
  exact (hplace _ _).1

theorem tiles_records (hecho : session.backend.Echoes) (hplace : session.backend.KeepsPlace)
    (writer : Provider) (code : List UInt8) (address : UInt64) :
    Tiles address (session.records writer code address) := by
  induction code, address using session.decode_induction with
  | stop code address hnone =>
    rw [records_of_none hnone]
    trivial
  | step code address decoded hsome ih =>
    have hsize : (session.record writer code decoded).size = decoded.size :=
      size_record hplace.keepsSize decoded
    rw [records_of_some hsome]
    refine ⟨address_record hecho hplace hsome, ?_, ?_⟩
    · rw [hsize]
      exact (decodeHead_bounds hsome).1
    · rwa [hsize]

theorem stopsAt_records (hkeep : session.backend.KeepsSize) (writer : Provider)
    (code : List UInt8) (address : UInt64) :
    session.StopsAt code address (coveredBytes (session.records writer code address)) := by
  induction code, address using session.decode_induction with
  | stop code address hnone =>
    rw [records_of_none hnone]
    exact .here (decodeHead_eq_none_iff.1 hnone)
  | step code address decoded hsome ih =>
    rw [records_of_some hsome, coveredBytes_cons, size_record hkeep]
    exact .later hsome ih

end Session

end Disassembly
