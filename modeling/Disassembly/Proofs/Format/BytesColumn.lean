import Disassembly.Format.Record
import Disassembly.Proofs.Decode.RawBytes
import Disassembly.Proofs.Decode.Tiling
import Disassembly.Proofs.Text.HexPairs
/-!
# Bytes columns

Digits that spell some bytes are read as these bytes, in either case and with blanks anywhere, and
what is shown of a record with a payload is such a text. Records with room for what they cover show
one part of the code after the other, so that all columns together spell the part that was decoded.
-/
namespace Disassembly

open CommandLine (coveredBytes)

namespace HexInput

open Numeral (IsDigit hexByte)

def halves (byte : UInt8) : List Nat := [byte.toNat / 16, byte.toNat % 16]

def Spelled (cs : List Char) (bytes : List UInt8) : Prop :=
  List.Forall₂ (IsDigit 16) cs (bytes.flatMap halves)

instance (cs : List Char) (bytes : List UInt8) : Decidable (Spelled cs bytes) :=
  inferInstanceAs (Decidable (List.Forall₂ _ _ _))

variable {cs : List Char} {bytes : List UInt8}

theorem isDigit_digitChar {d : Nat} (hd : d < 16) : IsDigit 16 d.digitChar d :=
  (Numeral.digit?_eq_some_iff (by decide)).1 (Numeral.digit?_digitChar 16 (by decide) d hd)

theorem spelled_hexByte (bytes : List UInt8) : Spelled (bytes.flatMap hexByte) bytes := by
  unfold Spelled
  induction bytes with
  | nil => exact .nil
  | cons byte bytes ih =>
    have hbyte := byte.toNat_lt
    exact .cons (isDigit_digitChar (by omega)) (.cons (isDigit_digitChar (by omega)) ih)

theorem Spelled.pairs (h : Spelled cs bytes) : Pairs IsPair cs bytes := by
  unfold Spelled at h
  induction bytes generalizing cs with
  | nil =>
    cases h
    exact .nil
  | cons byte bytes ih =>
    obtain ⟨a, tail, ha, htail, rfl⟩ := List.forall₂_cons_right_iff.1 h
    obtain ⟨b, rest, hb, hrest, rfl⟩ := List.forall₂_cons_right_iff.1 htail
    refine .pair ⟨byte.toNat / 16, byte.toNat % 16, ha, hb, ?_⟩ (ih hrest)
    exact (Nat.div_add_mod _ _).symm

theorem decode_of_spelled {text : String} (h : Spelled (significant text) bytes) :
    decode text = .ok bytes :=
  (decode_eq_ok_iff text).2 (h.pairs.imp fun _ _ _ _ => .inl)

/-! ### What is shown -/

theorem isBlankChar_of_isDigit : ∀ d < 16, isBlankChar d.digitChar = false := by decide

theorem filter_hexByte (byte : UInt8) :
    (hexByte byte).filter (!isBlankChar ·) = hexByte byte := by
  have hbyte := byte.toNat_lt
  have hhigh := isBlankChar_of_isDigit (byte.toNat / 16) (by omega)
  have hlow := isBlankChar_of_isDigit (byte.toNat % 16) (by omega)
  simp [hexByte, hhigh, hlow]

theorem significant_spacedHex (bytes : List UInt8) :
    significant (spacedHex bytes) = bytes.flatMap hexByte := by
  rw [significant, spacedHex, String.toList_ofList]
  induction bytes with
  | nil => rfl
  | cons byte bytes ih =>
    cases bytes with
    | nil => simp [filter_hexByte]
    | cons next bytes =>
      have hspace : [' '].filter (!isBlankChar ·) = [] := rfl
      rw [List.map_cons, List.map_cons, List.intercalate_cons_cons, List.filter_append,
        List.filter_append, hspace, filter_hexByte, List.flatMap_cons, List.append_nil]
      exact congrArg _ ih

theorem significant_join (texts : List String) :
    significant (String.join texts) = texts.flatMap significant := by
  rw [significant, String.toList_join, List.filter_flatMap]
  rfl

theorem significant_shownBytes {insn : Insn} (h : insn.detail.isSome = true) :
    significant insn.shownBytes = insn.raw.flatMap hexByte := by
  rw [Insn.shownBytes, if_pos h, significant_spacedHex]

theorem significant_columns {insns : List Insn} (h : ∀ insn ∈ insns, insn.detail.isSome = true) :
    significant (String.join (insns.map Insn.shownBytes)) =
      (insns.flatMap Insn.raw).flatMap hexByte := by
  rw [significant_join, List.flatMap_map, List.flatMap_assoc]
  exact List.flatMap_congr fun insn hmem => significant_shownBytes (h insn hmem)

end HexInput

/-! ### Records with room for what they cover -/

theorem X86.Fused.size_le {old insn new : Insn} (h : Fused old insn new) :
    new.size.toNat ≤ insnBytes := by
  rw [h.splices.size]
  obtain ⟨-, -, hprecedes, -⟩ := h
  simp only [precedes, Bool.and_eq_true, decide_eq_true_eq] at hprecedes
  exact hprecedes.2

theorem Toy.Fused.size_le {old insn new : Insn} (h : Fused old insn new) :
    new.size.toNat ≤ insnBytes := by
  rw [h.splices.size]
  exact h.1

theorem raw_of_shown {source : List UInt8} {insns : List Insn} (h : Shown source insns)
    (hroom : ∀ insn ∈ insns, insn.size.toNat ≤ insnBytes) :
    insns.flatMap Insn.raw = source.take (coveredBytes insns) := by
  induction insns generalizing source with
  | nil => simp
  | cons insn insns ih =>
    obtain ⟨hfirst, hrest⟩ := h
    obtain ⟨hsize, hsizes⟩ := List.forall_mem_cons.1 hroom
    rw [List.flatMap_cons, hfirst.raw, Nat.min_eq_left hsize, ih hrest hsizes, coveredBytes_cons,
      List.take_add]

namespace Backend

variable {backend : Backend} {insns rest : List Insn} {insn : Insn}

theorem Standard.fuses_within (h : backend.Standard) :
    backend.FusesBy fun _ _ new => new.size.toNat ≤ insnBytes :=
  h.fusesBy (fun _ _ _ => X86.Fused.size_le) fun _ _ _ => Toy.Fused.size_le

theorem within_offerTo (h : backend.FusesBy fun _ _ new => new.size.toNat ≤ insnBytes)
    (hroom : ∀ other ∈ insns ++ insn :: rest, other.size.toNat ≤ insnBytes) :
    ∀ other ∈ backend.offerTo insns insn ++ rest, other.size.toNat ≤ insnBytes := by
  have hoffered := offerTo_offered h insns insn
  generalize backend.offerTo insns insn = offered at hoffered
  cases hoffered with
  | apart => simpa using hroom
  | fused hinsns hnew =>
    intro other hmem
    simp only [List.mem_append, List.mem_singleton] at hmem
    rcases hmem with (hinit | rfl) | hrest
    · exact hroom other (by simp [hinsns, hinit])
    · exact hnew
    · exact hroom other (by simp [hrest])

theorem within_offerUpTo (h : backend.FusesBy fun _ _ new => new.size.toNat ≤ insnBytes)
    (count : Nat) (hroom : ∀ insn ∈ rest, insn.size.toNat ≤ insnBytes) :
    ∀ insn ∈ backend.offerUpTo count [] rest, insn.size.toNat ≤ insnBytes := by
  obtain ⟨left, hkept⟩ := offerUpTo_keeps
    (motive := fun insns rest => ∀ insn ∈ insns ++ rest, insn.size.toNat ≤ insnBytes)
    (fun _ _ _ => within_offerTo h) count (List.nil_append rest ▸ hroom)
  intro insn hmem
  exact hkept insn (List.mem_append_left left hmem)

theorem covered_offerTo (h : backend.FusesBy Insn.Splices) (insns : List Insn) (insn : Insn) :
    coveredBytes (backend.offerTo insns insn) = coveredBytes insns + insn.size.toNat := by
  have hoffered := offerTo_offered h insns insn
  generalize backend.offerTo insns insn = offered at hoffered
  cases hoffered with
  | apart => simp
  | fused hinsns hsplices => simp [hinsns, hsplices.size, Nat.add_assoc]

theorem covered_offerUpTo (h : backend.FusesBy Insn.Splices) (count : Nat)
    (insns rest : List Insn) : ∃ taken, taken <+: rest ∧ (count = 0 → taken = rest) ∧
      coveredBytes (backend.offerUpTo count insns rest) = coveredBytes (insns ++ taken) := by
  induction rest generalizing insns with
  | nil => exact ⟨[], List.prefix_rfl, fun _ => rfl, by simp [offerUpTo]⟩
  | cons insn rest ih =>
    have hoffer := covered_offerTo h insns insn
    rw [offerUpTo]
    split
    · next hfull =>
      refine ⟨[insn], ⟨rest, rfl⟩, ?_, by simp [hoffer]⟩
      intro hzero
      omega
    · obtain ⟨taken, htaken, hall, hcovered⟩ := ih (backend.offerTo insns insn)
      refine ⟨insn :: taken, List.cons_prefix_cons.2 ⟨rfl, htaken⟩, ?_, ?_⟩
      · intro hzero
        rw [hall hzero]
      · simp [hcovered, hoffer, Nat.add_assoc]

end Backend

namespace Session

open HexInput (significant)

variable {session : Session} {code : List UInt8} {address : UInt64}

inductive LeadsTo (session : Session) : List UInt8 → UInt64 → Nat → Prop where
  | here {code : List UInt8} {address : UInt64} : LeadsTo session code address 0
  | later {code : List UInt8} {address : UInt64} {decoded : Decoded} {n : Nat} :
      session.decodeHead code address = some decoded →
      LeadsTo session (code.drop decoded.size.toNat) (address + decoded.size.toUInt64) n →
      LeadsTo session code address (decoded.size.toNat + n)

theorem leadsTo_of_prefix (hkeep : session.backend.KeepsSize) (writer : Provider)
    {taken : List Insn} (h : taken <+: session.records writer code address) :
    session.LeadsTo code address (coveredBytes taken) := by
  induction code, address using session.decode_induction generalizing taken with
  | stop code address hnone =>
    rw [records_of_none hnone, List.prefix_nil] at h
    exact h ▸ .here
  | step code address decoded hsome ih =>
    rw [records_of_some hsome, List.prefix_cons_iff] at h
    rcases h with rfl | ⟨rest, rfl, hrest⟩
    · exact .here
    · rw [coveredBytes_cons, size_record hkeep]
      exact .later hsome (ih hrest)

/-- Records whose columns, blanks aside, are read as the part of a code that was decoded. -/
structure Columns (session : Session) (code : List UInt8) (address : UInt64) (count : Nat)
    (insns : List Insn) : Prop where
  reached : session.LeadsTo code address (coveredBytes insns)
  stops : count = 0 → session.StopsAt code address (coveredBytes insns)
  read : ∀ text, significant text = significant (String.join (insns.map Insn.shownBytes)) →
    HexInput.decode text = .ok (code.take (coveredBytes insns))

theorem columns_of_returned (hstandard : session.backend.Standard) (hdetail : session.detail = true)
    {host : Host} {count : Nat} {instructions : Instructions}
    (hroom : ∀ insn ∈ session.records (host.provider session.provider) code address,
      insn.size.toNat ≤ insnBytes)
    (hok : (session.disasmAll host code address count).1 = .ok instructions)
    (hpayload : ∀ insn ∈ instructions.insns, insn.detail.isSome = true) :
    session.Columns code address count instructions.insns := by
  have hkeep := hstandard.keepsSize
  have hshown := shown_records hstandard (host.provider session.provider) code address
  have hinsns := insns_of_returned hkeep hok
  obtain ⟨taken, htaken, hall, hcovered⟩ := Backend.covered_offerUpTo hstandard.splices count []
    (session.records (host.provider session.provider) code address)
  rw [← hinsns, List.nil_append] at hcovered
  refine ⟨?_, ?_, ?_⟩
  · rw [hcovered]
    exact leadsTo_of_prefix hkeep _ htaken
  · intro hzero
    rw [hcovered, hall hzero]
    exact stopsAt_records hkeep _ code address
  · intro text htext
    have hcombined : Shown code instructions.insns := by
      rw [sourceOf, if_pos hdetail] at hshown
      exact hinsns ▸ Backend.shown_offerUpTo hstandard.splices count hshown
    have hwithin := Backend.within_offerUpTo hstandard.fuses_within count hroom
    rw [← hinsns] at hwithin
    -- The columns, joined, spell the raw bytes of one record after the other.
    rw [HexInput.significant_columns hpayload, raw_of_shown hcombined hwithin] at htext
    apply HexInput.decode_of_spelled
    rw [htext]
    exact HexInput.spelled_hexByte _

/-- The digits of some bytes are read as these bytes, whatever their case and the blanks between
them; so what is shown of a record with a payload is read as its raw bytes, and the columns of a
decode of which every record has one are read as the part of the code that was decoded. -/
theorem shown_bytes_decode :
    (∀ bytes text, HexInput.Spelled (significant text) bytes → HexInput.decode text = .ok bytes) ∧
    (∀ insn : Insn, insn.detail.isSome = true →
      HexInput.decode insn.shownBytes = .ok insn.raw) ∧
    ∀ (session : Session) (host : Host) (code : List UInt8) (address : UInt64) (count : Nat),
      session.backend.Standard → session.detail = true →
      (∀ insn ∈ session.records (host.provider session.provider) code address,
        insn.size.toNat ≤ insnBytes) →
      ((host.provider session.provider).NeverRefuses → code.length ≤ maxRecords →
        ∃ instructions, (session.disasmAll host code address count).1 = .ok instructions) ∧
      ∀ instructions, (session.disasmAll host code address count).1 = .ok instructions →
        (∀ insn ∈ instructions.insns, insn.detail.isSome = true) →
        session.Columns code address count instructions.insns := by
  refine ⟨fun bytes text => HexInput.decode_of_spelled, ?_, ?_⟩
  · intro insn hpayload
    apply HexInput.decode_of_spelled
    rw [HexInput.significant_shownBytes hpayload]
    exact HexInput.spelled_hexByte insn.raw
  · intro session host code address count hstandard hdetail hroom
    refine ⟨exists_disasmAll hstandard.keepsSize, ?_⟩
    intro instructions hok hpayload
    exact columns_of_returned hstandard hdetail hroom hok hpayload

/-- A `wait`, a second one with the form that does not wait folded into it, and a byte that no
instruction starts with. -/
theorem shown_bytes_decode_wait_fstsw :
    let decoder : Decoder :=
      { Decoder.silent with
        decode := fun _ code _ =>
          if code.head? = some 0x9b then some ⟨1, 1, "wait", "", some ⟨[], [], [], [], 0⟩⟩
          else if code.head? = some 0xdf then some ⟨2, 2, "fnstsw", "ax", some ⟨[], [], [], [], 0⟩⟩
          else none }
    let session := { Toy.session 0 with backend := Arch.x86.backend decoder, detail := true }
    let code : List UInt8 := [0x9b, 0x9b, 0xdf, 0xe0, 0xff]
    HexInput.decode " 9B\t9bD F e0\n" = .ok [0x9b, 0x9b, 0xdf, 0xe0] ∧
      ∃ instructions, (session.disasmAll {} code 0 0).1 = .ok instructions ∧
        instructions.insns.map Insn.shownBytes = ["9b", "9b df e0"] ∧
        (∀ insn ∈ instructions.insns, HexInput.decode insn.shownBytes = .ok insn.raw) ∧
        session.Columns code 0 0 instructions.insns := by
  intro decoder session code
  obtain ⟨hspelled, hshown, hcolumns⟩ := shown_bytes_decode
  obtain ⟨hreturns, hread⟩ := hcolumns session {} code 0 0 (Arch.standard_backend .x86 decoder) rfl
    (by decide +kernel)
  obtain ⟨instructions, hok⟩ := hreturns Provider.neverRefuses_system (by decide)
  have hlisting : ((session.disasmAll {} code 0 0).1.toOption.map fun instructions =>
      (instructions.insns.map Insn.shownBytes, instructions.insns.all (·.detail.isSome))) =
        some (["9b", "9b df e0"], true) := by
    decide +kernel
  rw [hok] at hlisting
  obtain ⟨hcolumn, hall⟩ := Prod.mk.inj (Option.some.inj hlisting)
  have hpayload := List.all_eq_true.1 hall
  have htyped : HexInput.Spelled (significant " 9B\t9bD F e0\n") [0x9b, 0x9b, 0xdf, 0xe0] := by
    decide +kernel
  exact ⟨hspelled _ _ htyped, instructions, hok, hcolumn,
    fun insn hmem => hshown insn (hpayload insn hmem), hread instructions hok hpayload⟩

end Session

end Disassembly
