import Disassembly.Proofs.Decode.RawBytes
/-!
# Detail is only looked at

Detail mode fills in the bytes of a record and its payload, and nothing that a decode decides
depends on either. Both can be left out of the records before they are combined or after: the
records of a decode without detail are those of a decode with detail, less these two.
-/
namespace Disassembly

def Insn.outline (insn : Insn) : Insn := { insn with bytes := .zero _, detail := none }

def Decoded.outline (decoded : Decoded) : Decoded := { decoded with detail := none }

def Offer.outline (offer : Offer) : Offer where
  folded := offer.folded
  insn := offer.insn.outline
  last := offer.last.map Insn.outline

def Session.withDetail (session : Session) (on : Bool) : Session := { session with detail := on }

namespace Insn

@[simp] theorem size_outline (insn : Insn) : insn.outline.size = insn.size := rfl
@[simp] theorem mnemonic_outline (insn : Insn) : insn.outline.mnemonic = insn.mnemonic := rfl

theorem raw_outline (insn : Insn) :
    insn.outline.raw = List.replicate (min insn.size.toNat insnBytes) 0 :=
  List.take_replicate

theorem withLast_outline (insns : List Insn) (last : Option Insn) :
    withLast (insns.map outline) (last.map outline) = (withLast insns last).map outline := by
  cases last with
  | none => rfl
  | some last => simp [withLast, List.map_dropLast]

end Insn

theorem Decoded.size_of_outline {decoded decoded' : Decoded}
    (h : decoded.outline = decoded'.outline) : decoded.size = decoded'.size :=
  (Decoded.mk.inj h).2.1

namespace X86

theorem fused_outline (old insn : Insn) (mnemonic : String) :
    fused old.outline insn.outline mnemonic = (fused old insn mnemonic).outline := by
  have hbytes : Field.ofBytes insnBytes (old.outline.raw ++ insn.outline.raw) = .zero _ := by
    rw [Insn.raw_outline, Insn.raw_outline, List.replicate_append_replicate, Field.ofBytes_zeros]
  unfold fused
  rw [hbytes]
  rfl

theorem combine_outline (insn : Insn) (last : Option Insn) :
    combine insn.outline (last.map Insn.outline) = (combine insn last).outline := by
  unfold combine
  rw [Insn.mnemonic_outline]
  cases waitingForm? insn.mnemonic.text with
  | none => rfl
  | some mnemonic =>
    cases last with
    | none => rfl
    | some old =>
      -- Whether the two precede each other is the same condition on both sides.
      simp only [Option.map_some, fused_outline, apply_ite Offer.outline]
      rfl

end X86

namespace Toy

theorem fused_outline (old insn : Insn) :
    fused old.outline insn.outline = (fused old insn).outline := by
  have hold : old.outline.bytes.bytes = List.replicate insnBytes 0 := rfl
  have hbytes : Field.ofBytes insnBytes (old.outline.raw ++ insn.outline.raw ++
      old.outline.bytes.bytes.drop (old.size.toNat + insn.size.toNat)) = .zero _ := by
    rw [Insn.raw_outline, Insn.raw_outline, hold, List.drop_replicate,
      List.replicate_append_replicate, List.replicate_append_replicate, Field.ofBytes_zeros]
  unfold fused
  rw [Insn.size_outline, Insn.size_outline, hbytes]
  rfl

theorem combine_outline (insn : Insn) (last : Option Insn) :
    combine insn.outline (last.map Insn.outline) = (combine insn last).outline := by
  cases last with
  | none => rfl
  | some old =>
    simp only [combine, Option.map_some, fused_outline, apply_ite Offer.outline]
    rfl

end Toy

namespace Backend

variable {backend : Backend}

/-- A decoder that answers alike whether detail is asked for or not, but for the detail. -/
def DecodesAlike (backend : Backend) : Prop :=
  ∀ dialect code address, (backend.decode dialect code address false).map Decoded.outline =
    (backend.decode dialect code address true).map Decoded.outline

theorem Standard.combine_outline (h : backend.Standard) (insn : Insn) (last : Option Insn) :
    backend.combine insn.outline (last.map Insn.outline) = (backend.combine insn last).outline := by
  cases h with
  | plain _ hcombine =>
    rw [hcombine]
    rfl
  | x86 _ hcombine => rw [hcombine, X86.combine_outline]
  | toy _ hcombine => rw [hcombine, Toy.combine_outline]

theorem offerTo_outline (h : backend.Standard) (insns : List Insn) (insn : Insn) :
    backend.offerTo (insns.map Insn.outline) insn.outline =
      (backend.offerTo insns insn).map Insn.outline := by
  unfold offerTo
  rw [List.getLast?_map, h.combine_outline]
  simp only [Offer.outline, Insn.withLast_outline]
  split
  · rfl
  · simp

theorem offerUpTo_outline (h : backend.Standard) (count : Nat) (insns rest : List Insn) :
    backend.offerUpTo count (insns.map Insn.outline) (rest.map Insn.outline) =
      (backend.offerUpTo count insns rest).map Insn.outline := by
  induction rest generalizing insns with
  | nil => rfl
  | cons insn rest ih =>
    simp only [List.map_cons, offerUpTo, offerTo_outline h, List.length_map, ih]
    split <;> rfl

end Backend

theorem Toy.decodesAlike_backend : backend.DecodesAlike := by
  intro dialect code address
  simp only [backend, decode, Option.map_map]
  rfl

theorem Arch.decodesAlike_backend (arch : Arch) (decoder : Decoder) :
    (arch.backend decoder).DecodesAlike := by
  intro dialect code address
  have hdecode : (arch.backend decoder).decode = arch.decode decoder := by
    unfold backend
    dsimp only
    split <;> rfl
  rw [hdecode]
  unfold decode
  split
  · rfl
  · split <;> rfl

/-- The line of an instruction decides its texts, and the payload and the bytes have no part in
it. -/
theorem Insn.ofDecoded_outline {backend : Backend} (h : backend.Standard) (decoded : Decoded)
    (text : String) (code : List UInt8) (payload : Option (Payload Detail)) :
    ofDecoded backend false decoded text code none =
      (ofDecoded backend true decoded text code payload).outline := by
  obtain ⟨hint, hcorrect⟩ := h.exists_hint
  simp only [ofDecoded, hcorrect]
  rfl

theorem regionOf_outline (insns : List Insn) :
    regionOf (insns.map Insn.outline) = (regionOf insns).map (List.map Insn.outline) := by
  unfold regionOf
  rw [List.length_map]
  split <;> rfl

namespace Session

variable {session : Session} {host host' : Host}

theorem decodeHead_outline (halike : session.backend.DecodesAlike) (code : List UInt8)
    (address : UInt64) :
    ((session.withDetail false).decodeHead code address).map Decoded.outline =
      ((session.withDetail true).decodeHead code address).map Decoded.outline := by
  have hdecode := halike session.dialect code address
  unfold decodeHead
  simp only [withDetail]
  cases hoff : session.backend.decode session.dialect code address false with
  | none =>
    rw [hoff, Option.map_none, eq_comm, Option.map_eq_none_iff] at hdecode
    rw [hdecode]
  | some decoded' =>
    rw [hoff, Option.map_some, eq_comm, Option.map_eq_some_iff] at hdecode
    obtain ⟨decoded, hon, houtline⟩ := hdecode
    have hsize : decoded.size = decoded'.size := Decoded.size_of_outline houtline
    rw [hon]
    dsimp only
    rw [hsize]
    split
    · rfl
    · rw [Option.map_some, Option.map_some, houtline]

theorem record_of_outline (writer : Provider) (code : List UInt8) (decoded : Decoded) :
    (session.withDetail false).record writer code decoded.outline =
      (session.withDetail false).record writer code decoded := rfl

theorem record_outline (hstandard : session.backend.Standard) (writer : Provider)
    (code : List UInt8) {decoded decoded' : Decoded} (h : decoded'.outline = decoded.outline) :
    (session.withDetail false).record writer code decoded' =
      ((session.withDetail true).record writer code decoded).outline := by
  rw [← record_of_outline, h, record_of_outline]
  exact Insn.ofDecoded_outline hstandard decoded _ code _

theorem records_outline (hstandard : session.backend.Standard)
    (halike : session.backend.DecodesAlike) {p q : Provider} (hhand : p.SameHand q)
    (code : List UInt8) (address : UInt64) :
    (session.withDetail false).records p code address =
      ((session.withDetail true).records q code address).map Insn.outline := by
  rw [records_sameHand hhand]
  induction code, address using (session.withDetail true).decode_induction with
  | stop code address hnone =>
    have hhead := decodeHead_outline halike code address
    rw [hnone, Option.map_none, Option.map_eq_none_iff] at hhead
    rw [records_of_none hhead, records_of_none hnone, List.map_nil]
  | step code address decoded hsome ih =>
    have hhead := decodeHead_outline halike code address
    rw [hsome, Option.map_some, Option.map_eq_some_iff] at hhead
    obtain ⟨decoded', hsome', houtline⟩ := hhead
    have hsize : decoded'.size = decoded.size := Decoded.size_of_outline houtline
    rw [records_of_some hsome, records_of_some hsome', record_outline hstandard _ _ houtline,
      hsize, ih, List.map_cons]

section NeverRefused

variable (hstandard : session.backend.Standard) (halike : session.backend.DecodesAlike)
  (hfree : (host.provider session.provider).NeverRefuses)
  (hsame : (host'.provider session.provider).reset = (host.provider session.provider).reset)

include hstandard halike hfree hsame

theorem disasm_outline (code : List UInt8) (address : UInt64) {slots slots' : List Insn}
    (hslots : slots'.length = slots.length) :
    ((session.withDetail false).disasm host' code address slots').1.produced =
      ((session.withDetail true).disasm host code address slots).1.produced.map Insn.outline := by
  have hkeep : ∀ on, (session.withDetail on).backend.KeepsSize := fun _ => hstandard.keepsSize
  have hfree' : (host'.provider session.provider).NeverRefuses :=
    fun later hlater => hfree later (hlater.trans hsame)
  have hoff := produced_eq_take (hkeep false) hfree' code address slots'
  have hon := produced_eq_take (hkeep true) hfree code address slots
  rw [hoff, hon, hslots, List.map_take]
  exact congrArg _ (records_outline hstandard halike (.of_reset hsame) code address)

theorem disasmAll_outline (code : List UInt8) (address : UInt64) (count : Nat) :
    ((session.withDetail false).disasmAll host' code address count).1.map Instructions.insns =
      ((session.withDetail true).disasmAll host code address count).1.map
        fun instructions => instructions.insns.map Insn.outline := by
  have hkeep : ∀ on, (session.withDetail on).backend.KeepsSize := fun _ => hstandard.keepsSize
  have hfree' : (host'.provider session.provider).NeverRefuses :=
    fun later hlater => hfree later (hlater.trans hsame)
  have hoff := insns_of_neverRefuses (hkeep false) hfree' code address count
  have hon := insns_of_neverRefuses (hkeep true) hfree code address count
  have hrecords := records_outline hstandard halike (.of_reset hsame) code address
  have hoffered := Backend.offerUpTo_outline hstandard count []
    ((session.withDetail true).records (host.provider session.provider) code address)
  calc ((session.withDetail false).disasmAll host' code address count).1.map Instructions.insns
    _ = regionOf ((session.backend.offerUpTo count [] ((session.withDetail true).records
          (host.provider session.provider) code address)).map Insn.outline) := by
      rw [hoff, ← hoffered]
      exact congrArg (fun records => regionOf (session.backend.offerUpTo count [] records))
        hrecords
    _ = (((session.withDetail true).disasmAll host code address count).1.map
          Instructions.insns).map (List.map Insn.outline) := by
      rw [regionOf_outline, hon]
      rfl
    _ = _ := by
      cases ((session.withDetail true).disasmAll host code address count).1 <;> rfl

end NeverRefused

/-- Detail is only looked at. All families, and the toy, decode alike with it on or off; and where
that is so, both decodes make the same records in any two states of a provider that never
refuses, save that with detail off their bytes are zero and they have no payload. -/
theorem detail_only_observes :
    (∀ arch decoder,
      (Arch.backend arch decoder).Standard ∧ (Arch.backend arch decoder).DecodesAlike) ∧
    (Toy.backend.Standard ∧ Toy.backend.DecodesAlike) ∧
    ∀ (session : Session) (host host' : Host) (code : List UInt8) (address : UInt64),
      session.backend.Standard → session.backend.DecodesAlike →
      (host.provider session.provider).NeverRefuses →
      (host'.provider session.provider).reset = (host.provider session.provider).reset →
      (∀ slots slots' : List Insn, slots'.length = slots.length →
        ((session.withDetail true).disasm host code address slots).1.produced =
          ((session.withDetail true).records (host.provider session.provider) code address).take
            slots.length ∧
        ((session.withDetail false).disasm host' code address slots').1.produced =
          ((session.withDetail true).disasm host code address slots).1.produced.map
            Insn.outline) ∧
      ∀ count,
        (code.length ≤ maxRecords → ∃ instructions,
          ((session.withDetail true).disasmAll host code address count).1 = .ok instructions) ∧
        ((session.withDetail false).disasmAll host' code address count).1.map
            Instructions.insns =
          ((session.withDetail true).disasmAll host code address count).1.map
            fun instructions => instructions.insns.map Insn.outline := by
  refine ⟨?_, ⟨Toy.standard_backend, Toy.decodesAlike_backend⟩, ?_⟩
  · intro arch decoder
    exact ⟨arch.standard_backend decoder, arch.decodesAlike_backend decoder⟩
  · intro session host host' code address hstandard halike hfree hsame
    constructor
    · intro slots slots' hslots
      have hkeep : (session.withDetail true).backend.KeepsSize := hstandard.keepsSize
      exact ⟨produced_eq_take hkeep hfree code address slots,
        disasm_outline hstandard halike hfree hsame code address hslots⟩
    · intro count
      have hkeep : (session.withDetail true).backend.KeepsSize := hstandard.keepsSize
      refine ⟨exists_disasmAll hkeep hfree, ?_⟩
      exact disasmAll_outline hstandard halike hfree hsame code address count

/-- A `wait` before a form that does not wait, of which only the latter has a payload. -/
theorem detail_only_observes_wait :
    let decoder : Decoder :=
      { Decoder.silent with
        decode := fun _ code _ =>
          if code.head? = some 0x9b then some ⟨1, 1, "wait", "", none⟩
          else some ⟨2, 2, "fnstsw", "ax", some ⟨[], [1], [], [], 0⟩⟩ }
    let session := { Toy.session 0 with backend := Arch.x86.backend decoder }
    session.backend.Standard ∧ session.backend.DecodesAlike ∧
      (({} : Host).provider session.provider).NeverRefuses ∧
      ((session.withDetail true).disasmAll {} [0x9b, 0xdf, 0xe0] 0 0).1.toOption.map
          (fun instructions => instructions.insns.map fun insn => insn.detail.isSome) =
        some [true] ∧
      (((session.withDetail false).disasmAll {} [0x9b, 0xdf, 0xe0] 0 0).1.map
          Instructions.insns).toOption.map (List.map fun insn => (insn.size, insn.mnemonic.text)) =
        some [(3, "fstsw")] ∧
      ((session.withDetail false).disasm {} [0x9b, 0xdf, 0xe0] 0 [{}, {}, {}]).1.produced.map
          (fun insn => (insn.size, insn.mnemonic.text)) = [(1, "wait"), (2, "fnstsw")] := by
  intro decoder session
  obtain ⟨hfamilies, -, hobserves⟩ := detail_only_observes
  obtain ⟨hstandard, halike⟩ := hfamilies .x86 decoder
  have hfree : (({} : Host).provider session.provider).NeverRefuses := Provider.neverRefuses_system
  obtain ⟨hfixed, hdynamic⟩ :=
    hobserves session {} {} [0x9b, 0xdf, 0xe0] 0 hstandard halike hfree rfl
  obtain ⟨hproduced, houtlined⟩ := hfixed [{}, {}, {}] [{}, {}, {}] rfl
  refine ⟨hstandard, halike, hfree, by decide +kernel, ?_, ?_⟩
  · rw [(hdynamic 0).2]
    decide +kernel
  · rw [houtlined, hproduced]
    decide +kernel

end Session

end Disassembly
