import Disassembly.Proofs.Decode.Resumption
import Disassembly.Proofs.Family.Fusing
/-!
# Where a cap cuts

A decode with a cap and one without it go the same way up to the record that reaches the cap. What
the second one still does touches that record alone of those already there, and at most once: a
`wait` may be fused with the instruction behind it, and what comes of it is no `wait`.
-/
namespace Disassembly

namespace X86

variable {old insn new : Insn}

theorem Fused.text_old (h : Fused old insn new) : old.mnemonic.text = "wait" := by
  obtain ⟨-, -, hprecedes, -⟩ := h
  simp only [precedes, Bool.and_eq_true, beq_iff_eq] at hprecedes
  exact hprecedes.1.1

theorem Fused.text_new (h : Fused old insn new) : new.mnemonic.text ≠ "wait" := by
  obtain ⟨waiting, hform, -, rfl⟩ := h
  have hforms : ∀ form ∈ waitForms, form.2 ≠ "wait" := by decide
  have hmem := mem_waitForms hform
  have htext : (fused old insn waiting).mnemonic.text = waiting := text_waiting hmem
  rw [htext]
  exact hforms _ hmem

theorem Fused.address_new (h : Fused old insn new) : new.address = old.address := by
  obtain ⟨waiting, -, -, rfl⟩ := h
  rfl

end X86

theorem Arch.fusesBy_backend (arch : Arch) (decoder : Decoder) :
    (arch.backend decoder).FusesBy X86.Fused := by
  rcases arch.combine_backend decoder with hx86 | hapart
  · exact Backend.fusesBy_x86 hx86
  · exact Backend.fusesBy_apart hapart _

/-- How what was returned up to a cap stands to all that there is to return. `next` is the record
of the instruction behind the cap, if there is one. -/
structure Capped (count : Nat) (next : Option Insn) (all capped : List Insn) : Prop where
  length : capped.length = min count all.length
  whole : capped.length < count → capped = all
  before : ∀ i, i + 1 < capped.length → capped[i]? = all[i]?
  last : ∀ last, capped.getLast? = some last → ∃ other, all[capped.length - 1]? = some other ∧
    other.address = last.address ∧ (last.mnemonic.text ≠ "wait" → other = last) ∧
    (other = last ∨ ∃ insn, next = some insn ∧ X86.Fused last insn other)

namespace Capped

variable {count : Nat} {next : Option Insn} {init more capped : List Insn} {last other : Insn}

theorem of_all (h : capped.length < count) : Capped count next capped capped := by
  refine ⟨(Nat.min_eq_right (Nat.le_of_lt h)).symm, fun _ => rfl, fun _ _ => rfl, ?_⟩
  intro last hlast
  rw [List.getLast?_eq_getElem?] at hlast
  exact ⟨last, hlast, rfl, fun _ => rfl, .inl rfl⟩

theorem of_reached (hfull : init.length + 1 = count)
    (hother : other = last ∨ ∃ insn, next = some insn ∧ X86.Fused last insn other) :
    Capped count next (init ++ other :: more) (init ++ [last]) := by
  constructor
  · simp only [List.length_append, List.length_cons, List.length_nil]
    omega
  · intro hshort
    simp only [List.length_append, List.length_singleton] at hshort
    omega
  · intro i hi
    simp only [List.length_append, List.length_singleton] at hi
    rw [List.getElem?_append_left (by omega), List.getElem?_append_left (by omega)]
  · intro final hfinal
    rw [List.getLast?_concat, Option.some.injEq] at hfinal
    subst final
    refine ⟨other, by simp, ?_, ?_, hother⟩
    · rcases hother with rfl | ⟨insn, -, hfused⟩
      · rfl
      · exact hfused.address_new
    · intro htext
      rcases hother with rfl | ⟨insn, -, hfused⟩
      · rfl
      · exact absurd hfused.text_old htext

end Capped

namespace Backend

variable {backend : Backend} {insns : List Insn}

theorem offerTo_ne_nil (h : insns ≠ []) (insn : Insn) : backend.offerTo insns insn ≠ [] := by
  have hpos := List.length_pos_iff.2 h
  have hlength := backend.length_offerTo insns insn
  apply List.ne_nil_of_length_pos
  omega

theorem offerTo_append (front : List Insn) (h : insns ≠ []) (insn : Insn) :
    backend.offerTo (front ++ insns) insn = front ++ backend.offerTo insns insn := by
  obtain ⟨init, last, rfl⟩ := (List.eq_nil_or_concat insns).resolve_left h
  obtain ⟨kept, hkept, hoffer⟩ := offerTo_concat backend init last insn
  obtain ⟨other, hother, hboth⟩ := offerTo_concat backend (front ++ init) last insn
  rw [hkept] at hother
  cases hother
  rw [List.concat_eq_append, ← List.append_assoc, hboth, hoffer]
  split <;> simp only [List.append_assoc]

theorem foldl_offerTo_append (front : List Insn) (h : insns ≠ []) (rest : List Insn) :
    rest.foldl backend.offerTo (front ++ insns) = front ++ rest.foldl backend.offerTo insns := by
  induction rest generalizing insns with
  | nil => rfl
  | cons insn rest ih =>
    rw [List.foldl_cons, List.foldl_cons, offerTo_append front h, ih (offerTo_ne_nil h insn)]

/-- Up to a cap the records in front of it are combined, and if it is not reached, all are. -/
theorem offerUpTo_split {count : Nat} (h : insns.length < count) (rest : List Insn) :
    ∃ before after, rest = before ++ after ∧
      backend.offerUpTo count insns rest = before.foldl backend.offerTo insns ∧
      ((backend.offerUpTo count insns rest).length = count ∨
        (after = [] ∧ (backend.offerUpTo count insns rest).length < count)) := by
  induction rest generalizing insns with
  | nil => exact ⟨[], [], rfl, rfl, .inr ⟨rfl, h⟩⟩
  | cons insn rest ih =>
    by_cases hfull : (backend.offerTo insns insn).length = count
    · have hoffer : backend.offerUpTo count insns (insn :: rest) = backend.offerTo insns insn := by
        rw [offerUpTo, if_pos ⟨by omega, hfull⟩]
      exact ⟨[insn], rest, rfl, hoffer, .inl (by rw [hoffer, hfull])⟩
    · have hlength := backend.length_offerTo insns insn
      have hshort : (backend.offerTo insns insn).length < count := by
        split at hlength <;> omega
      have hoffer : backend.offerUpTo count insns (insn :: rest) =
          backend.offerUpTo count (backend.offerTo insns insn) rest := by
        rw [offerUpTo, if_neg (fun hcap => hfull hcap.2)]
      obtain ⟨before, after, rfl, hbefore, hcap⟩ := ih hshort
      rw [hoffer]
      exact ⟨insn :: before, after, rfl, hbefore, hcap⟩

theorem foldl_offerTo_singleton (hfuses : backend.FusesBy X86.Fused) (last : Insn)
    (rest : List Insn) :
    ∃ other more, rest.foldl backend.offerTo [last] = other :: more ∧
      (other = last ∨ ∃ insn, rest.head? = some insn ∧ X86.Fused last insn other) := by
  induction rest generalizing last with
  | nil => exact ⟨last, [], rfl, .inl rfl⟩
  | cons insn rest ih =>
    have hoffered := offerTo_offered hfuses [last] insn
    rw [List.foldl_cons]
    generalize backend.offerTo [last] insn = offered at hoffered
    cases hoffered with
    | apart =>
      rw [foldl_offerTo_append [last] (List.cons_ne_nil insn [])]
      exact ⟨last, _, rfl, .inl rfl⟩
    | @fused init old new hlast hfused =>
      have hsplit : [] ++ [last] = init ++ [old] := hlast
      obtain ⟨rfl, hsingle⟩ := List.append_inj' hsplit rfl
      obtain rfl := List.singleton_inj.1 hsingle
      obtain ⟨other, more, hrest, hother⟩ := ih new
      refine ⟨other, more, hrest, .inr ⟨insn, rfl, ?_⟩⟩
      -- The fused record is no `wait`, and so the offers that follow leave it as it is.
      rcases hother with rfl | ⟨next, -, hagain⟩
      · exact hfused
      · exact absurd hagain.text_old hfused.text_new

/-- What combining makes of some records up to a cap, and of all of them. -/
theorem capped_offerUpTo (hfuses : backend.FusesBy X86.Fused) {count : Nat} (hcount : 0 < count)
    (records : List Insn) :
    ∃ before after, records = before ++ after ∧
      backend.offerUpTo count [] records = before.foldl backend.offerTo [] ∧
      Capped count after.head? (backend.offerUpTo 0 [] records)
        (backend.offerUpTo count [] records) := by
  obtain ⟨before, after, rfl, hbefore, hcap⟩ := @offerUpTo_split backend [] count hcount records
  refine ⟨before, after, rfl, hbefore, ?_⟩
  rw [offerUpTo_zero, List.foldl_append, ← hbefore]
  generalize backend.offerUpTo count [] (before ++ after) = capped at hcap
  rcases hcap with hfull | ⟨rfl, hshort⟩
  · have hne : capped ≠ [] := List.ne_nil_of_length_pos (by omega)
    obtain ⟨init, last, rfl⟩ := (List.eq_nil_or_concat capped).resolve_left hne
    -- Behind the cut only the last record can still be changed by what follows.
    obtain ⟨other, more, hfront, hother⟩ := foldl_offerTo_singleton hfuses last after
    rw [List.concat_eq_append] at hfull ⊢
    rw [foldl_offerTo_append init (List.cons_ne_nil last []), hfront]
    rw [List.length_append, List.length_singleton] at hfull
    exact .of_reached hfull hother
  · exact .of_all hshort

end Backend

namespace Session

open CommandLine (coveredBytes)

variable {session : Session} {host host' : Host} {arch : Arch} {decoder : Decoder} {count : Nat}

theorem coveredBytes_foldl (hjoins : session.backend.Joins) {address : UInt64}
    {insns : List Insn} (h : Tiles address insns) :
    coveredBytes (insns.foldl session.backend.offerTo []) = coveredBytes insns := by
  obtain ⟨-, -, hcovered⟩ := Backend.tiles_offerUpTo hjoins 0 [] insns h
  rw [← Backend.offerUpTo_zero]
  exact hcovered rfl

/-- The records that are not combined are those of the code that the combined ones leave over. -/
theorem records_behind (hkeep : session.backend.KeepsSize) (hjoins : session.backend.Joins)
    {writer : Provider} {code : List UInt8} {address : UInt64} {before after : List Insn}
    (htiles : Tiles address (session.records writer code address))
    (h : session.records writer code address = before ++ after) :
    after = session.records writer
      (code.drop (coveredBytes (before.foldl session.backend.offerTo [])))
      (address + (coveredBytes (before.foldl session.backend.offerTo [])).toUInt64) := by
  have hdrop := drop_records hkeep writer code address before.length
  rw [h, List.drop_left, List.take_left] at hdrop
  rw [h] at htiles
  rwa [coveredBytes_foldl hjoins (tiles_of_append htiles)]

/-- A dynamic decode with a cap, of any of the families, returns as many records as the cap allows
or there are. They are those that a decode without a cap returns, but for a `wait` at the cut,
which that one may have fused with the instruction behind. -/
theorem disasmAll_capped (hfamily : session.backend = arch.backend decoder)
    (hfree : (host.provider session.provider).NeverRefuses)
    (hsame : (host'.provider session.provider).reset = (host.provider session.provider).reset)
    (hcount : 0 < count) (code : List UInt8) (address : UInt64) :
    (code.length ≤ maxRecords →
      ∃ all, (session.disasmAll host code address 0).1 = .ok all) ∧
    ∀ all, (session.disasmAll host code address 0).1 = .ok all →
      ∃ capped, (session.disasmAll host' code address count).1 = .ok capped ∧
        let covered := coveredBytes capped.insns
        let next := (session.disasm host' (code.drop covered) (address + covered.toUInt64)
          [{}]).1.produced.head?
        Capped count next all.insns capped.insns := by
  have hplace : session.backend.KeepsPlace := hfamily ▸ arch.keepsPlace_backend decoder
  have hecho : session.backend.Echoes := hfamily ▸ arch.echoes_backend decoder
  have hfuses : session.backend.FusesBy X86.Fused := hfamily ▸ arch.fusesBy_backend decoder
  have hkeep := hplace.keepsSize
  have hjoins : session.backend.Joins := hfamily ▸ arch.joins_backend decoder
  have hfree' : (host'.provider session.provider).NeverRefuses :=
    fun later hlater => hfree later (hlater.trans hsame)
  refine ⟨exists_disasmAll hkeep hfree, ?_⟩
  intro all hall
  -- Both runs are measured against one list of records, whichever host they start from.
  let writer := host'.provider session.provider
  have hinsns : all.insns =
      session.backend.offerUpTo 0 [] (session.records writer code address) := by
    rw [insns_of_returned hkeep hall, records_sameHand (.of_reset hsame)]
  obtain ⟨before, after, hrecords, hbefore, hcapped⟩ :=
    Backend.capped_offerUpTo hfuses hcount (session.records writer code address)
  rw [← hinsns] at hcapped
  have hfits : all.insns.length ≤ maxRecords := by
    have hregion := insns_of_neverRefuses hkeep hfree code address 0
    rw [hall, ← insns_of_returned hkeep hall] at hregion
    exact length_of_regionOf hregion.symm
  have hshort := (hcapped.length.trans_le (Nat.min_le_right _ _)).trans hfits
  obtain ⟨capped, hok⟩ := exists_disasmAll_of_fits hkeep hfree' hshort
  refine ⟨capped, hok, ?_⟩
  have hreturned : capped.insns = session.backend.offerUpTo count []
      (session.records writer code address) := insns_of_returned hkeep hok
  have hbehind := records_behind hkeep hjoins (tiles_records hecho hplace writer code address)
    hrecords
  rw [← hbefore, ← hreturned] at hbehind
  rw [← hreturned, hbehind] at hcapped
  intro covered next
  have hnext : next = (session.records writer (code.drop covered)
      (address + covered.toUInt64)).head? := by
    show List.head? _ = _
    rw [produced_eq_take hkeep hfree', List.head?_take, if_neg (by simp)]
  rw [hnext]
  exact hcapped

/-- Two times `wait` and a form that does not wait. A cap of two leaves the second `wait` alone,
which without a cap becomes one instruction with what is behind it. -/
theorem disasmAll_capped_at_wait :
    let decoder : Decoder :=
      { Decoder.silent with
        decode := fun _ code _ =>
          if code.head? = some 0x9b then some ⟨1, 1, "wait", "", none⟩
          else some ⟨2, 2, "fnstsw", "ax", none⟩ }
    let session := { Toy.session 0 with backend := Arch.x86.backend decoder }
    let code : List UInt8 := [0x9b, 0x9b, 0xdf, 0xe0]
    ∃ all capped, (session.disasmAll {} code 0 0).1 = .ok all ∧
      (session.disasmAll {} code 0 2).1 = .ok capped ∧
      all.insns.map (fun insn => insn.mnemonic.text) = ["wait", "fstsw"] ∧
      capped.insns.map (fun insn => insn.mnemonic.text) = ["wait", "wait"] ∧
      capped.insns[0]? = all.insns[0]? := by
  intro decoder session code
  have hfree : (({} : Host).provider session.provider).NeverRefuses := Provider.neverRefuses_system
  obtain ⟨hexists, hcapped⟩ :=
    @disasmAll_capped session {} {} .x86 decoder 2 rfl hfree rfl (by decide) code 0
  obtain ⟨all, hall⟩ := hexists (by decide)
  obtain ⟨capped, hok, hcut⟩ := hcapped all hall
  have htexts : ∀ count result, (session.disasmAll {} code 0 count).1 = .ok result →
      ((session.disasmAll {} code 0 count).1.toOption.map
        fun instructions => instructions.insns.map fun insn => insn.mnemonic.text) =
          some (result.insns.map fun insn => insn.mnemonic.text) := by
    intro count result hresult
    rw [hresult]
    rfl
  have hwhole : all.insns.map (fun insn => insn.mnemonic.text) = ["wait", "fstsw"] :=
    Option.some.inj ((htexts 0 all hall).symm.trans (by decide +kernel))
  have hshort : capped.insns.map (fun insn => insn.mnemonic.text) = ["wait", "wait"] :=
    Option.some.inj ((htexts 2 capped hok).symm.trans (by decide +kernel))
  have hlength : capped.insns.length = 2 := by
    rw [← List.length_map, hshort]
    rfl
  exact ⟨all, capped, hall, hok, hwhole, hshort, hcut.before 0 (by omega)⟩

end Session

end Disassembly
