import Disassembly.Proofs.Decode.Dynamic
import Disassembly.Proofs.Decode.Fixed
import Disassembly.Proofs.Family.Hooks
/-!
# The bytes of a record

In detail mode a record holds the bytes that it covers, as many as there is room for, and zeros
behind them; otherwise it holds zeros only. Both are one statement about a source: the code
itself, or as many zeros. Fusing two neighbours puts side by side what they show of it.
-/
namespace Disassembly

open CommandLine (coveredBytes)

namespace Field

variable {size n : Nat} {bytes : List UInt8}

theorem ofBytes_zeros (size n : Nat) : ofBytes size (List.replicate n 0) = zero size := by
  apply ext
  simp only [ofBytes, zero, List.take_replicate, List.length_replicate,
    List.replicate_append_replicate]
  congr 1
  omega

theorem ofBytes_append_zeros (h : bytes.length + n ≤ size) :
    ofBytes size (bytes ++ List.replicate n 0) = ofBytes size bytes := by
  apply ext
  rw [bytes_ofBytes_of_length_le (by simpa using h), bytes_ofBytes_of_length_le (by omega),
    List.append_assoc, List.replicate_append_replicate, List.length_append, List.length_replicate]
  congr 2
  omega

theorem take_bytes_ofBytes (size : Nat) (bytes : List UInt8) :
    (ofBytes size bytes).bytes.take bytes.length = bytes.take size := by
  rw [ofBytes, List.take_append, List.take_take, List.length_take]
  rcases Nat.le_total bytes.length size with hle | hle
  · simp [hle, List.take_of_length_le hle]
  · simp [hle]

theorem drop_bytes_ofBytes (size : Nat) (bytes : List UInt8) :
    (ofBytes size bytes).bytes.drop bytes.length =
      List.replicate (size - bytes.length) 0 := by
  rw [ofBytes, List.drop_append, List.length_take]
  rcases Nat.le_total bytes.length size with hle | hle
  · simp [hle]
  · simp [hle]

end Field

namespace Insn

/-- A record holds what it covers at the front of a source, and zeros behind it. -/
structure Shows (insn : Insn) (source : List UInt8) : Prop where
  within : insn.size.toNat ≤ source.length
  bytes : insn.bytes = .ofBytes _ (source.take insn.size.toNat)

/-- A record that may take the place of two neighbours: it covers what they cover, and shows it
wherever they do. -/
structure Splices (old insn new : Insn) : Prop where
  size : new.size.toNat = old.size.toNat + insn.size.toNat
  shows : ∀ source, old.Shows source → insn.Shows (source.drop old.size.toNat) → new.Shows source

variable {insn old new : Insn} {source : List UInt8}

theorem Shows.length_take (h : insn.Shows source) :
    (source.take insn.size.toNat).length = insn.size.toNat :=
  List.length_take_of_le h.within

theorem Shows.raw (h : insn.Shows source) :
    insn.raw = source.take (min insn.size.toNat insnBytes) := by
  have htake := Field.take_bytes_ofBytes insnBytes (source.take insn.size.toNat)
  rw [h.length_take, List.take_take, Nat.min_comm] at htake
  rw [Insn.raw, h.bytes, htake]

theorem Shows.padding (h : insn.Shows source) :
    insn.bytes.bytes.drop insn.size.toNat =
      List.replicate (insnBytes - insn.size.toNat) 0 := by
  have hdrop := Field.drop_bytes_ofBytes insnBytes (source.take insn.size.toNat)
  rw [h.length_take] at hdrop
  rw [h.bytes, hdrop]

/-- Two neighbours with room for both in one field show what lies side by side in the source. -/
theorem Shows.raw_append (hold : old.Shows source) (hinsn : insn.Shows (source.drop old.size.toNat))
    (hroom : old.size.toNat + insn.size.toNat ≤ insnBytes) :
    old.raw ++ insn.raw = source.take (old.size.toNat + insn.size.toNat) := by
  rw [hold.raw, hinsn.raw, Nat.min_eq_left (by omega), Nat.min_eq_left (by omega), List.take_add]

/-- Whatever zeros stand behind the bytes of both records make no difference. -/
theorem splices_of_bytes (hroom : old.size.toNat + insn.size.toNat ≤ insnBytes)
    (hsize : new.size = old.size + insn.size)
    (hbytes : ∀ source, old.Shows source → ∃ n,
      old.size.toNat + insn.size.toNat + n ≤ insnBytes ∧
        new.bytes = .ofBytes _ (old.raw ++ insn.raw ++ List.replicate n 0)) :
    Splices old insn new := by
  have hsum : new.size.toNat = old.size.toNat + insn.size.toNat := hsize ▸ toNat_add_size hroom
  refine ⟨hsum, ?_⟩
  intro source hold hinsn
  obtain ⟨n, hfits, hnew⟩ := hbytes source hold
  have hbefore := hold.within
  have hbehind := hinsn.within
  rw [List.length_drop] at hbehind
  refine ⟨by omega, ?_⟩
  rw [hnew, hold.raw_append hinsn hroom, hsum]
  -- The zeros behind what is covered are those that a field is filled up with anyway.
  apply Field.ofBytes_append_zeros
  rw [List.length_take_of_le (by omega)]
  exact hfits

end Insn

theorem X86.Fused.splices {old insn new : Insn} (h : Fused old insn new) :
    Insn.Splices old insn new := by
  obtain ⟨mnemonic, -, hprecedes, rfl⟩ := h
  simp only [precedes, Bool.and_eq_true, decide_eq_true_eq] at hprecedes
  refine Insn.splices_of_bytes hprecedes.2 rfl ?_
  intro source _
  exact ⟨0, hprecedes.2, by simp [fused]⟩

theorem Toy.Fused.splices {old insn new : Insn} (h : Fused old insn new) :
    Insn.Splices old insn new := by
  obtain ⟨hroom, rfl⟩ := h
  refine Insn.splices_of_bytes hroom rfl ?_
  intro source hold
  -- What is kept of the prefix's own field lies behind the prefix, and is zero.
  refine ⟨insnBytes - old.size.toNat - insn.size.toNat, by omega, ?_⟩
  rw [fused, ← List.drop_drop, hold.padding, List.drop_replicate]

namespace Backend

variable {backend : Backend} {fused : Insn → Insn → Insn → Prop}

theorem FusesBy.imp (h : backend.FusesBy fused) {other : Insn → Insn → Insn → Prop}
    (himp : ∀ old insn new, fused old insn new → other old insn new) : backend.FusesBy other := by
  intro insn last
  rcases h insn last with hapart | ⟨old, new, hlast, hfolded, hnew, hfused⟩
  · exact .inl hapart
  · exact .inr ⟨old, new, hlast, hfolded, hnew, himp old insn new hfused⟩

/-- What holds of all that x86 and the toy make of two records holds of every family. -/
theorem Standard.fusesBy (h : backend.Standard)
    (hx86 : ∀ old insn new, X86.Fused old insn new → fused old insn new)
    (htoy : ∀ old insn new, Toy.Fused old insn new → fused old insn new) :
    backend.FusesBy fused := by
  cases h with
  | plain _ hcombine => exact fusesBy_apart hcombine _
  | x86 _ hcombine => exact (fusesBy_x86 hcombine).imp hx86
  | toy _ hcombine => exact (fusesBy_toy hcombine).imp htoy

theorem Standard.splices (h : backend.Standard) : backend.FusesBy Insn.Splices :=
  h.fusesBy (fun _ _ _ => X86.Fused.splices) fun _ _ _ => Toy.Fused.splices

end Backend

def Shown : List UInt8 → List Insn → Prop
  | _, [] => True
  | source, insn :: rest => insn.Shows source ∧ Shown (source.drop insn.size.toNat) rest

section Shown

variable {source : List UInt8} {insn old new : Insn} {insns rest : List Insn} {i : Nat}

theorem shown_iff_along (address : UInt64) : Shown source insns ↔
    Along (fun source _ insn => insn.Shows source) source address insns := by
  induction insns generalizing source address with
  | nil => exact Iff.rfl
  | cons insn insns ih => rw [Shown, Along, ih]

theorem shown_append : Shown source (insns ++ rest) ↔
    Shown source insns ∧ Shown (source.drop (coveredBytes insns)) rest := by
  rw [shown_iff_along 0, along_append, ← shown_iff_along, ← shown_iff_along]

theorem covered_of_shown (h : Shown source insns) : coveredBytes insns ≤ source.length := by
  induction insns generalizing source with
  | nil => exact Nat.zero_le _
  | cons insn insns ih =>
    have hfirst := h.1.within
    have hrest := ih h.2
    rw [List.length_drop] at hrest
    rw [coveredBytes_cons]
    omega

theorem shows_of_shown (h : Shown source insns) (hi : insns[i]? = some insn) :
    insn.Shows (source.drop (coveredBytes (insns.take i))) :=
  holds_of_along ((shown_iff_along 0).1 h) hi

theorem shown_splice (h : Shown source (insns ++ old :: insn :: rest))
    (hsplices : Insn.Splices old insn new) : Shown source (insns ++ new :: rest) := by
  obtain ⟨hinsns, hold, hinsn, hrest⟩ := shown_append.1 h
  refine shown_append.2 ⟨hinsns, hsplices.shows _ hold hinsn, ?_⟩
  rwa [List.drop_drop, ← hsplices.size] at hrest

end Shown

namespace Backend

variable {backend : Backend} {source : List UInt8} {insns rest : List Insn}

theorem shown_offerTo (hsplices : backend.FusesBy Insn.Splices) {insn : Insn}
    (h : Shown source (insns ++ insn :: rest)) :
    Shown source (backend.offerTo insns insn ++ rest) := by
  have hoffered := offerTo_offered hsplices insns insn
  generalize backend.offerTo insns insn = offered at hoffered
  cases hoffered with
  | apart => simpa using h
  | @fused init old new hinsns hfused =>
    rw [hinsns, List.append_assoc] at h
    rw [List.append_assoc]
    exact shown_splice h hfused

theorem shown_offerUpTo (hsplices : backend.FusesBy Insn.Splices) (count : Nat)
    (h : Shown source (insns ++ rest)) :
    Shown source (backend.offerUpTo count insns rest) := by
  obtain ⟨left, hshown⟩ := offerUpTo_keeps
    (motive := fun insns rest => Shown source (insns ++ rest))
    (fun _ _ _ => shown_offerTo hsplices) count h
  exact (shown_append.1 hshown).1

end Backend

/-- What records show of a code: its bytes, or zeros in their place. -/
def sourceOf (detail : Bool) (code : List UInt8) : List UInt8 :=
  if detail then code else List.replicate code.length 0

theorem drop_sourceOf (detail : Bool) (code : List UInt8) (n : Nat) :
    (sourceOf detail code).drop n = sourceOf detail (code.drop n) := by
  cases detail <;> simp [sourceOf]

theorem length_sourceOf (detail : Bool) (code : List UInt8) :
    (sourceOf detail code).length = code.length := by
  cases detail <;> simp [sourceOf]

/-- Records that carry the part of a code that they cover, with zeros behind it; or, with detail
off, nothing but zeros. -/
structure Carries (detail : Bool) (code : List UInt8) (insns : List Insn) : Prop where
  within : coveredBytes insns ≤ code.length
  raw : detail = true → ∀ i insn, insns[i]? = some insn → insn.raw =
    (code.drop (coveredBytes (insns.take i))).take (min insn.size.toNat insnBytes)
  padding : detail = true → ∀ insn ∈ insns, insn.bytes.bytes.drop insn.size.toNat =
    List.replicate (insnBytes - insn.size.toNat) 0
  blank : detail = false → ∀ insn ∈ insns, insn.bytes = .zero _

theorem Shown.carries {detail : Bool} {code : List UInt8} {insns : List Insn}
    (h : Shown (sourceOf detail code) insns) : Carries detail code insns := by
  refine ⟨?_, ?_, ?_, ?_⟩
  · have hcovered := covered_of_shown h
    rwa [length_sourceOf] at hcovered
  · rintro rfl i insn hi
    exact (shows_of_shown h hi).raw
  · rintro - insn hmem
    obtain ⟨i, hi⟩ := List.getElem?_of_mem hmem
    exact (shows_of_shown h hi).padding
  · rintro rfl insn hmem
    obtain ⟨i, hi⟩ := List.getElem?_of_mem hmem
    have hbytes := (shows_of_shown h hi).bytes
    rw [drop_sourceOf] at hbytes
    rw [hbytes, sourceOf, if_neg Bool.false_ne_true, List.take_replicate, Field.ofBytes_zeros]

namespace Session

variable {session : Session}

theorem shows_record (hstandard : session.backend.Standard) (writer : Provider)
    {code : List UInt8} {address : UInt64} {decoded : Decoded}
    (h : session.decodeHead code address = some decoded) :
    (session.record writer code decoded).Shows (sourceOf session.detail code) := by
  have hsize : (session.record writer code decoded).size = decoded.size :=
    size_record hstandard.keepsSize decoded
  have hbytes : (session.record writer code decoded).bytes =
      if session.detail then .ofBytes _ (code.take decoded.size.toNat) else .zero _ := by
    simp only [record, Insn.ofDecoded, Insn.setOpStr, Insn.setMnemonic, hstandard.insn_correct]
  refine ⟨?_, ?_⟩
  · rw [hsize, length_sourceOf]
    exact (decodeHead_bounds h).2.1
  · rw [hbytes, hsize]
    cases session.detail with
    | false => simp [sourceOf, List.take_replicate, Field.ofBytes_zeros]
    | true => simp [sourceOf]

theorem shown_records (hstandard : session.backend.Standard) (writer : Provider)
    (code : List UInt8) (address : UInt64) :
    Shown (sourceOf session.detail code) (session.records writer code address) := by
  induction code, address using session.decode_induction with
  | stop code address hnone =>
    rw [records_of_none hnone]
    trivial
  | step code address decoded hsome ih =>
    rw [records_of_some hsome]
    refine ⟨shows_record hstandard writer hsome, ?_⟩
    rwa [size_record hstandard.keepsSize, drop_sourceOf]

/-- Every record of a decode carries the part of the code that it covers, whether it was decoded
like this or made of two, and wherever it was when that happened. -/
theorem records_carry_code (hstandard : session.backend.Standard) (host : Host)
    (code : List UInt8) (address : UInt64) :
    (∀ slots,
      ((host.provider session.provider).NeverRefuses →
        (session.disasm host code address slots).1.produced =
          (session.records (host.provider session.provider) code address).take slots.length) ∧
      Carries session.detail code (session.disasm host code address slots).1.produced) ∧
    ∀ count,
      ((host.provider session.provider).NeverRefuses → code.length ≤ maxRecords →
        ∃ instructions, (session.disasmAll host code address count).1 = .ok instructions) ∧
      ∀ instructions, (session.disasmAll host code address count).1 = .ok instructions →
        Carries session.detail code instructions.insns := by
  have hkeep := hstandard.keepsSize
  have hshown := shown_records hstandard (host.provider session.provider) code address
  constructor
  · intro slots
    refine ⟨fun hfree => produced_eq_take hkeep hfree code address slots, ?_⟩
    have hfills := fill_spec hkeep (host.provider session.provider) slots host code address
      fun _ _ => rfl
    obtain ⟨rest, hrest⟩ := hfills.produced
    rw [← hrest] at hshown
    exact (shown_append.1 hshown).1.carries
  · intro count
    refine ⟨exists_disasmAll hkeep, ?_⟩
    intro instructions hok
    rw [insns_of_returned hkeep hok]
    exact (Backend.shown_offerUpTo hstandard.splices count hshown).carries

/-- Two times `wait` and a form that does not wait: three records of a fixed decode, of which a
dynamic decode makes one of the last two. -/
theorem records_carry_code_wait_wait :
    let decoder : Decoder :=
      { Decoder.silent with
        decode := fun _ code _ =>
          if code.head? = some 0x9b then some ⟨1, 1, "wait", "", none⟩
          else some ⟨2, 2, "fnstsw", "ax", none⟩ }
    let session := { Toy.session 0 with backend := Arch.x86.backend decoder, detail := true }
    let filled := (session.disasm {} [0x9b, 0x9b, 0xdf, 0xe0] 0 [{}, {}, {}, {}]).1
    session.backend.Standard ∧
      (filled.produced.map Insn.raw = [[0x9b], [0x9b], [0xdf, 0xe0]] ∧
        Carries true [0x9b, 0x9b, 0xdf, 0xe0] filled.produced) ∧
      ∃ instructions, (session.disasmAll {} [0x9b, 0x9b, 0xdf, 0xe0] 0 0).1 = .ok instructions ∧
        instructions.insns.map Insn.raw = [[0x9b], [0x9b, 0xdf, 0xe0]] ∧
        Carries true [0x9b, 0x9b, 0xdf, 0xe0] instructions.insns := by
  intro decoder session filled
  have hstandard : session.backend.Standard := Arch.standard_backend .x86 decoder
  obtain ⟨hfixed, hdynamic⟩ :=
    @records_carry_code session hstandard {} [0x9b, 0x9b, 0xdf, 0xe0] 0
  obtain ⟨hproduced, hfilled⟩ := hfixed [{}, {}, {}, {}]
  obtain ⟨hreturns, hcarries⟩ := hdynamic 0
  have hrecords : filled.produced.map Insn.raw = [[0x9b], [0x9b], [0xdf, 0xe0]] := by
    dsimp only [filled]
    rw [hproduced Provider.neverRefuses_system]
    decide +kernel
  obtain ⟨instructions, hok⟩ := hreturns Provider.neverRefuses_system (by decide)
  have hraws : ((session.disasmAll {} [0x9b, 0x9b, 0xdf, 0xe0] 0 0).1.toOption.map
      fun instructions => instructions.insns.map Insn.raw) =
        some [[0x9b], [0x9b, 0xdf, 0xe0]] := by
    decide +kernel
  rw [hok] at hraws
  exact ⟨hstandard, ⟨hrecords, hfilled⟩, instructions, hok, Option.some.inj hraws,
    hcarries instructions hok⟩

end Session

end Disassembly
