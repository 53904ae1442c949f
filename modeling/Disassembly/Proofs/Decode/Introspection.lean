import Disassembly.Proofs.Decode.Cap
import Disassembly.Proofs.Decode.RawBytes
import Disassembly.Proofs.Detail.Reported
import Disassembly.Proofs.Session.Queries
/-!
# Records, and what the decoder said about them

Along the code every record stands for one answer of the decoder, or for two, the second of which
starts where the first one ends. Its payload is what the family makes of the last of them. Combining
keeps this: only a `wait` that nothing was folded into yet is fused with the record behind it.
-/
namespace Disassembly

open CommandLine (coveredBytes)

/-! ### Answers of the decoder -/

/-- The last of the decoder's answers about so many bytes of a code: the only one, or the second
of two. -/
inductive LastReported (decoder : Decoder) (dialect : Dialect) (code : List UInt8)
    (address : UInt64) : Nat → ReportedInsn → Prop where
  | only {reported : ReportedInsn} (h : decoder.decode dialect code address = some reported) :
      LastReported decoder dialect code address reported.size reported
  | second {first reported : ReportedInsn}
      (hfirst : decoder.decode dialect code address = some first)
      (h : decoder.decode dialect (code.drop first.size) (address + first.size.toUInt64) =
        some reported)
      (hpos : 0 < reported.size) :
      LastReported decoder dialect code address (first.size + reported.size) reported

theorem Arch.decode_backend (arch : Arch) (decoder : Decoder) :
    (arch.backend decoder).decode = arch.decode decoder := by
  simp only [backend]
  split <;> rfl

theorem Arch.reported_of_decode {arch : Arch} {decoder : Decoder} {dialect : Dialect}
    {code : List UInt8} {address : UInt64} {decoded : Decoded}
    (h : arch.decode decoder dialect code address true = some decoded) :
    ∃ reported, decoder.decode dialect code address = some reported ∧
      reported.size = decoded.size.toNat ∧
      decoded.detail = reported.detail.map (Detail.ofFamily arch) := by
  rw [decode] at h
  split at h
  · cases h
  · next reported hreported =>
    split at h
    · next hword =>
      cases h
      refine ⟨reported, hreported, ?_, rfl⟩
      rw [Nat.toUInt16_eq, UInt16.toNat_ofNat']
      exact (Nat.mod_eq_of_lt hword).symm
    · cases h

theorem X86.Fused.payload {old insn new : Insn} (h : Fused old insn new) :
    new.payload = insn.payload := by
  obtain ⟨mnemonic, -, -, rfl⟩ := h
  rfl

namespace Session

variable {session : Session} {decoder : Decoder} {code : List UInt8} {address : UInt64}
  {insn old new : Insn} {insns rest : List Insn}

structure Single (session : Session) (decoder : Decoder) (code : List UInt8) (address : UInt64)
    (insn : Insn) : Prop where
  size_pos : 0 < insn.size.toNat
  reported : ∃ reported, decoder.decode session.dialect code address = some reported ∧
    reported.size = insn.size.toNat ∧
    insn.payload = reported.detail.map (Detail.ofFamily session.arch)

/-- The record of one answer of the decoder or of two, the second of which gave the payload. A
`wait` is one by itself. -/
structure Traced (session : Session) (decoder : Decoder) (code : List UInt8) (address : UInt64)
    (insn : Insn) : Prop where
  single : insn.mnemonic.text = "wait" → session.Single decoder code address insn
  reported : ∃ reported,
    LastReported decoder session.dialect code address insn.size.toNat reported ∧
      insn.payload = reported.detail.map (Detail.ofFamily session.arch)

theorem Single.traced (h : session.Single decoder code address insn) :
    session.Traced decoder code address insn := by
  obtain ⟨reported, hdecode, hsize, hpayload⟩ := h.reported
  exact ⟨fun _ => h, reported, hsize ▸ .only hdecode, hpayload⟩

/-- Only a record that stands for one answer takes another one in. -/
theorem Traced.fuse (hold : session.Traced decoder code address old)
    (hinsn : session.Single decoder (code.drop old.size.toNat) (address + old.size.toUInt64) insn)
    (hfused : X86.Fused old insn new) : session.Traced decoder code address new := by
  obtain ⟨first, hfirst, hfirstSize, -⟩ := (hold.single hfused.text_old).reported
  obtain ⟨reported, hreported, hsize, hpayload⟩ := hinsn.reported
  have hpos := hinsn.size_pos
  rw [← toUInt64_toNat_size, ← hfirstSize] at hreported
  have hsum : first.size + reported.size = new.size.toNat := by
    rw [hfirstSize, hsize, hfused.splices.size]
  refine ⟨fun htext => absurd htext hfused.text_new, reported, ?_, ?_⟩
  · rw [← hsum]
    exact .second hfirst hreported (hsize ▸ hpos)
  · rw [hfused.payload, hpayload]

theorem single_record (hfamily : session.backend = session.arch.backend decoder)
    (hdetail : session.detail = true) (writer : Provider) {decoded : Decoded}
    (h : session.decodeHead code address = some decoded) :
    session.Single decoder code address (session.record writer code decoded) := by
  have hstandard : session.backend.Standard := hfamily ▸ session.arch.standard_backend decoder
  have hsize : (session.record writer code decoded).size = decoded.size :=
    size_record hstandard.keepsSize decoded
  have hpayload : (session.record writer code decoded).payload = decoded.detail := by
    simp only [record, payloadOf, hdetail, if_true, Insn.ofDecoded, Insn.setOpStr,
      Insn.setMnemonic, hstandard.insn_correct, Insn.payload]
    cases decoded.detail <;> rfl
  have hdecode : session.arch.decode decoder session.dialect code address true = some decoded := by
    rw [← Arch.decode_backend, ← hfamily, ← hdetail]
    exact decode_of_decodeHead h
  obtain ⟨reported, hreported, hreportedSize, hreportedDetail⟩ := Arch.reported_of_decode hdecode
  obtain ⟨hzero, -, -⟩ := decodeHead_bounds h
  constructor
  · rw [hsize]
    exact Nat.pos_of_ne_zero fun hz => hzero (UInt16.toNat_inj.1 hz)
  · refine ⟨reported, hreported, ?_, ?_⟩
    · rw [hsize, hreportedSize]
    · rw [hpayload, hreportedDetail]

theorem along_records (hfamily : session.backend = session.arch.backend decoder)
    (hdetail : session.detail = true) (writer : Provider) (code : List UInt8) (address : UInt64) :
    Along (session.Single decoder) code address (session.records writer code address) := by
  have hkeep : session.backend.KeepsSize :=
    hfamily ▸ (session.arch.standard_backend decoder).keepsSize
  induction code, address using session.decode_induction with
  | stop code address hnone =>
    rw [records_of_none hnone]
    trivial
  | step code address decoded hsome ih =>
    rw [records_of_some hsome]
    refine ⟨single_record hfamily hdetail writer hsome, ?_⟩
    rwa [size_record hkeep]

def HalfTraced (session : Session) (decoder : Decoder) (code : List UInt8) (address : UInt64)
    (insns rest : List Insn) : Prop :=
  Along (session.Traced decoder) code address insns ∧
    Along (session.Single decoder) (code.drop (coveredBytes insns))
      (address + (coveredBytes insns).toUInt64) rest

theorem halfTraced_offerTo (hfuses : session.backend.FusesBy X86.Fused)
    (h : session.HalfTraced decoder code address insns (insn :: rest)) :
    session.HalfTraced decoder code address (session.backend.offerTo insns insn) rest := by
  obtain ⟨hinsns, hinsn, hrest⟩ := h
  have hoffered := Backend.offerTo_offered hfuses insns insn
  generalize session.backend.offerTo insns insn = offered at hoffered
  cases hoffered with
  | apart =>
    refine ⟨along_append.2 ⟨hinsns, hinsn.traced, trivial⟩, ?_⟩
    rwa [drop_covered_concat, add_covered_concat]
  | @fused init old new hlast hfused =>
    subst hlast
    have hcovered : coveredBytes (init ++ [new]) = coveredBytes (init ++ [old] ++ [insn]) := by
      simp [hfused.splices.size]
    obtain ⟨hinit, hold, -⟩ := along_append.1 hinsns
    rw [drop_covered_concat, add_covered_concat] at hinsn
    refine ⟨along_append.2 ⟨hinit, hold.fuse hinsn hfused, trivial⟩, ?_⟩
    rwa [hcovered, drop_covered_concat, add_covered_concat]

theorem along_offerUpTo (hfuses : session.backend.FusesBy X86.Fused) (count : Nat)
    (h : Along (session.Single decoder) code address rest) :
    Along (session.Traced decoder) code address (session.backend.offerUpTo count [] rest) := by
  have hstart : session.HalfTraced decoder code address [] rest := by
    refine ⟨trivial, ?_⟩
    simpa using h
  obtain ⟨left, htraced⟩ := Backend.offerUpTo_keeps
    (motive := fun insns rest => session.HalfTraced decoder code address insns rest)
    (fun _ _ _ => halfTraced_offerTo hfuses) count hstart
  exact htraced.1

/-- Records whose payloads tell what the decoder last reported about the bytes they cover. -/
def Introspects (session : Session) (decoder : Decoder) (code : List UInt8) (address : UInt64)
    (insns : List Insn) : Prop :=
  ∀ i insn, insns[i]? = some insn →
    ∃ reported,
      LastReported decoder session.dialect (code.drop (coveredBytes (insns.take i)))
        (address + (coveredBytes (insns.take i)).toUInt64) insn.size.toNat reported ∧
      (insn.payload = none ↔ reported.detail = none) ∧
      ∀ detail, reported.detail = some detail → insn.Tells session.arch detail

theorem introspects_of_along (h : Along (session.Traced decoder) code address insns) :
    session.Introspects decoder code address insns := by
  intro i insn hi
  obtain ⟨-, reported, hlast, hpayload⟩ := holds_of_along h hi
  refine ⟨reported, hlast, ?_, ?_⟩
  · rw [hpayload, Option.map_eq_none_iff]
  · intro detail hdetail
    rw [hdetail] at hpayload
    exact Insn.tells_of_payload hpayload

/-- Asked through a session of a family, a record tells what the decoder reported about the last
instruction it covers, each list up to its capacity and the operands of the family by their kinds.
A session with detail off tells nothing of any record. -/
theorem introspection_exact :
    (∀ (session : Session) (decoder : Decoder),
      session.backend = session.arch.backend decoder → session.detail = true →
      ∀ (host : Host) (code : List UInt8) (address : UInt64),
        (∀ slots, session.Introspects decoder code address
          (session.disasm host code address slots).1.produced) ∧
        ∀ count instructions, (session.disasmAll host code address count).1 = .ok instructions →
          session.Introspects decoder code address instructions.insns) ∧
    ∀ (session : Session) (insn : Insn),
      (session.detail = true → session.Relays insn) ∧
      (session.detail = false → session.Withholds insn) := by
  constructor
  · intro session decoder hfamily hdetail host code address
    have hkeep : session.backend.KeepsSize :=
      hfamily ▸ (session.arch.standard_backend decoder).keepsSize
    have hfuses : session.backend.FusesBy X86.Fused :=
      hfamily ▸ session.arch.fusesBy_backend decoder
    have hsingle := along_records hfamily hdetail (host.provider session.provider) code address
    constructor
    · intro slots
      have hfills := fill_spec hkeep (host.provider session.provider) slots host code address
        fun _ _ => rfl
      -- What was written is a beginning of the records, and whatever holds of each one holds there.
      obtain ⟨rest, hrest⟩ := hfills.produced
      rw [← hrest] at hsingle
      exact introspects_of_along ((along_append.1 hsingle).1.imp fun _ _ _ => Single.traced)
    · intro count instructions hok
      rw [insns_of_returned hkeep hok]
      exact introspects_of_along (along_offerUpTo hfuses count hsingle)
  · intro session insn
    exact ⟨fun hdetail => relays_of_detail hdetail insn,
      fun hdetail => withholds_of_no_detail hdetail insn⟩

/-- A `wait` in a group of its own and a form that does not wait in nine, with an operand of another
family before its own. -/
theorem introspection_exact_wait :
    let decoder : Decoder :=
      { Decoder.silent with
        decode := fun _ code _ =>
          if code.head? = some 0x9b then some ⟨1, 1, "wait", "", some ⟨[], [], [50], [], 0⟩⟩
          else
            some ⟨2, 2, "fnstsw", "ax", some ⟨[30], [19], [41, 42, 43, 44, 45, 46, 47, 48, 49],
              [(.arm, .imm 4), (.x86, .reg 19)], 4⟩⟩ }
    let session := { Toy.session 0 with backend := Arch.x86.backend decoder, detail := true }
    session.backend = session.arch.backend decoder ∧ session.detail = true ∧
      ∃ instructions, (session.disasmAll {} [0x9b, 0xdf, 0xe0] 0 0).1 = .ok instructions ∧
        session.Introspects decoder [0x9b, 0xdf, 0xe0] 0 instructions.insns ∧
        (∀ insn ∈ instructions.insns, session.Relays insn) ∧
        (instructions.insns.map fun insn => (insn.size,
          [48, 49, 50].map fun group => (session.insnGroup insn group).1,
          [X86Kind.reg, .imm].map fun kind => (session.opIndex insn (.x86 kind) 1).1)) =
            [(3, [true, false, false], [0, -1])] := by
  intro decoder session
  obtain ⟨hproduced, hqueries⟩ := introspection_exact
  have hanswers : (session.disasmAll {} [0x9b, 0xdf, 0xe0] 0 0).1.toOption.map (fun instructions =>
      instructions.insns.map fun insn => (insn.size,
        [48, 49, 50].map fun group => (session.insnGroup insn group).1,
        [X86Kind.reg, .imm].map fun kind => (session.opIndex insn (.x86 kind) 1).1)) =
          some [(3, [true, false, false], [0, -1])] := by
    decide +kernel
  cases hok : (session.disasmAll {} [0x9b, 0xdf, 0xe0] 0 0).1 with
  | error error =>
    rw [hok] at hanswers
    cases hanswers
  | ok instructions =>
    rw [hok] at hanswers
    have hintrospects := (hproduced session decoder rfl rfl {} [0x9b, 0xdf, 0xe0] 0).2 0 _ hok
    exact ⟨rfl, rfl, instructions, rfl, hintrospects,
      fun insn _ => (hqueries session insn).1 rfl, Option.some.inj hanswers⟩

end Session

end Disassembly
