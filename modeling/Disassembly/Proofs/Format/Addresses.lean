import Disassembly.Proofs.Format.RoundTrip
import Disassembly.Proofs.Format.Rows
import Disassembly.Proofs.Text.Digits
import Disassembly.Text.Address
/-!
# Addresses, typed and printed

Reading an address accepts a grammar and nothing else, and a number that is no 64-bit word is
refused and never cut. The addresses in a listing are in that grammar, so that they are read back
from every format that prints them alone.
-/
namespace Disassembly

namespace Address

open Numeral (IsNumeral Spells)

/-- How a number is written as an address: hexadecimal behind `0x` or `0X`, decimal otherwise. -/
inductive Written : List Char → Nat → Prop where
  | hex {x : Char} {text : List Char} {n : Nat} : x = 'x' ∨ x = 'X' → IsNumeral 16 text n →
      Written ('0' :: x :: text) n
  | decimal {text : List Char} {n : Nat} : IsNumeral 10 text n → Written text n

variable {text : List Char} {n : Nat}

theorem not_isNumeral_marked {x : Char} (hx : x = 'x' ∨ x = 'X') (text : List Char) :
    ¬ IsNumeral 10 ('0' :: x :: text) n := by
  rintro ⟨digits, -, heq | heq, hspells⟩
  · rw [← heq] at hspells
    obtain ⟨d, hd⟩ := hspells.exists_digit (List.mem_cons_of_mem _ List.mem_cons_self)
    have hnone : ∀ d < 10, ¬ Numeral.IsDigit 10 'x' d ∧ ¬ Numeral.IsDigit 10 'X' d := by decide
    rcases hx with rfl | rfl
    · exact (hnone d hd.1).1 hd
    · exact (hnone d hd.1).2 hd
  · cases heq

theorem written_marked_iff {x : Char} (hx : x = 'x' ∨ x = 'X') :
    Written ('0' :: x :: text) n ↔ IsNumeral 16 text n := by
  constructor
  · intro h
    cases h with
    | hex _ hnumeral => exact hnumeral
    | decimal hnumeral => exact absurd hnumeral (not_isNumeral_marked hx text)
  · exact .hex hx

theorem written_iff (text : List Char) :
    Written text n ↔ IsNumeral (digits text).1 (digits text).2 n := by
  unfold digits
  split
  · exact written_marked_iff (.inl rfl)
  · exact written_marked_iff (.inr rfl)
  · next hsmall hlarge =>
    constructor
    · intro h
      cases h with
      | hex hx _ =>
        rcases hx with rfl | rfl
        · exact absurd rfl (hsmall _)
        · exact absurd rfl (hlarge _)
      | decimal hnumeral => exact hnumeral
    · exact .decimal

theorem radix_le (text : List Char) : (digits text).1 ≤ 16 := by
  unfold digits
  split <;> simp

theorem read_eq_ok_iff (text : String) (address : UInt64) :
    read text = .ok address ↔ Written text.toList address.toNat := by
  have hnumeral := fun n => @Numeral.read_eq_ok_iff _ _ n (digits text.toList).2
    (radix_le text.toList) (Nat.two_pow_pos 64)
  rw [written_iff]
  constructor
  · intro h
    unfold read at h
    dsimp only at h
    split at h
    · next n hread =>
      cases h
      obtain ⟨hspelled, hlt⟩ := (hnumeral n).1 hread
      rwa [Nat.toUInt64_eq, UInt64.toNat_ofNat_of_lt' hlt]
    · cases h
  · intro h
    have hread := (hnumeral address.toNat).2 ⟨h, address.toNat_lt⟩
    unfold read
    dsimp only
    rw [hread]
    simp

theorem read_eq_error_iff (text : String) :
    (∃ fault, read text = .error fault) ↔ ∀ n, Written text.toList n → 2 ^ 64 ≤ n := by
  constructor
  · rintro ⟨fault, h⟩ n hwritten
    by_contra hlt
    have hword : (UInt64.ofNat n).toNat = n := UInt64.toNat_ofNat_of_lt' (Nat.not_le.1 hlt)
    have hread := (read_eq_ok_iff text (.ofNat n)).2 (hword.symm ▸ hwritten)
    rw [h] at hread
    cases hread
  · intro h
    cases hread : read text with
    | error fault => exact ⟨fault, rfl⟩
    | ok address =>
      have hle := h _ ((read_eq_ok_iff text address).1 hread)
      exact absurd address.toNat_lt (Nat.not_lt.2 hle)

theorem read_hex (address : UInt64) : read (Numeral.hex address.toNat) = .ok address := by
  have htext :
      (Numeral.hex address.toNat).toList = '0' :: 'x' :: Nat.toDigits 16 address.toNat := by
    simp [Numeral.hex, Numeral.hexDigits]
  have hread : Numeral.read 16 UInt64.size (Nat.toDigits 16 address.toNat) = .ok address.toNat :=
    Numeral.read_toDigits (by decide) (by decide) address.toNat_lt
  simp only [read, htext, digits, hread]
  simp

end Address

theorem Format.readRows_renderCsv {insns : List Insn} (h : insns ≠ []) (base : UInt64) :
    Csv.readRows (renderCsv insns base) = some (csvHeader :: insns.map (csvRow base)) := by
  rw [renderCsv, if_neg (by simpa using h)]
  apply Csv.readRows_writeRows
  intro row hrow
  rcases List.mem_cons.1 hrow with rfl | hrow
  · exact List.cons_ne_nil _ _
  · obtain ⟨insn, -, rfl⟩ := List.mem_map.1 hrow
    exact List.cons_ne_nil _ _

open Address (Written)

/-- An address is read exactly where the text is one, and then as its exact value; every address of
a listing is read back, and so is the base. -/
theorem Address.read_exact :
    (∀ text : String,
      (∀ address, Address.read text = .ok address ↔ Written text.toList address.toNat) ∧
        ((∃ fault, Address.read text = .error fault) ↔
          ∀ n, Written text.toList n → 2 ^ 64 ≤ n)) ∧
    ∀ (insns : List Insn) (base : UInt64),
      (∃ document, Document.ofJson (Format.render .json insns base) = .ok document ∧
        Address.read document.baseAddress = .ok base ∧
        document.instructions.map (Address.read ·.address) = insns.map (.ok ·.address)) ∧
      (∃ (lines : List String) (records : List Record),
        Format.render .jsonLines insns base = String.join (lines.map (· ++ "\n")) ∧
        lines.map Record.ofJson = records.map .ok ∧
        records.map (Address.read ·.address) = insns.map (.ok ·.address)) ∧
      (insns ≠ [] → ∃ header rows,
        Csv.readRows (Format.render .csv insns base) = some (header :: rows) ∧
        rows.map (fun row => (row.take 2).map Address.read) =
          insns.map fun insn => [.ok base, .ok insn.address]) := by
  constructor
  · intro text
    exact ⟨read_eq_ok_iff text, read_eq_error_iff text⟩
  · intro insns base
    have haddress : ∀ insn : Insn, Address.read (Record.ofInsn insn).address = .ok insn.address :=
      fun insn => read_hex insn.address
    refine ⟨⟨_, Document.ofJson_pretty insns base, read_hex base, ?_⟩,
      ⟨insns.map fun insn => (Record.ofInsn insn).toJson.compact, insns.map Record.ofInsn,
        ?_, ?_, ?_⟩,
      ?_⟩
    · simp [Document.ofInsns, haddress]
    · rw [List.map_map]
      rfl
    · simp [Record.ofJson_compact]
    · simp [haddress]
    · intro hinsns
      refine ⟨_, _, Format.readRows_renderCsv hinsns base, ?_⟩
      simp [Format.csvRow, haddress, read_hex]

/-- The largest address, written with a sign and zeros in front, and a record there. -/
theorem Address.read_exact_last_address :
    let insn : Insn := { address := 0xffffffffffffffff }
    Written "0X+00ffffffffffffffff".toList (2 ^ 64 - 1) ∧
      ∃ header rows, Csv.readRows (Format.render .csv [insn] 0) = some (header :: rows) ∧
        rows.map (fun row => (row.take 2).map Address.read) = [[.ok 0, .ok 0xffffffffffffffff]] := by
  intro insn
  obtain ⟨hread, hlisted⟩ := Address.read_exact
  have hlast := ((hread "0X+00ffffffffffffffff").1 0xffffffffffffffff).1 (by decide)
  exact ⟨hlast, (hlisted [insn] 0).2.2 (List.cons_ne_nil _ _)⟩

end Disassembly
