import Disassembly.Proofs.Text.Digits
import Disassembly.Proofs.Text.Fields
import Disassembly.Text.HexInput
/-!
# Pairs of hexadecimal digits

The bytes of a typed text are paired without regard to its characters, but only pairs of ASCII
characters are ever read, so that pairing the characters that are no blanks comes to the same. A
pair is read as a numeral, and one digit with a plus sign in front of it is a numeral too.
-/
namespace Disassembly

namespace Utf8

variable {c : Char} {b : UInt8}

theorem encode_cons (c : Char) (text : List Char) :
    encode (c :: text) = String.utf8EncodeChar c ++ encode text := rfl

theorem encode_append (a b : List Char) : encode (a ++ b) = encode a ++ encode b :=
  List.flatMap_append

theorem encode_inj {a b : List Char} : encode a = encode b ↔ a = b := by
  constructor
  · intro h
    have hdecode := decode?_encode a
    rw [h, decode?_encode] at hdecode
    exact (Option.some.inj hdecode).symm
  · exact congrArg encode

theorem encodeChar_of_lt (h : c.toNat < 128) : String.utf8EncodeChar c = [c.toNat.toUInt8] := by
  rw [String.utf8EncodeChar]
  exact if_pos (Nat.le_of_lt_succ h)

theorem le_of_mem_encodeChar (h : 128 ≤ c.toNat) (hb : b ∈ String.utf8EncodeChar c) :
    128 ≤ b.toNat := by
  have hval : ¬ c.val.toNat ≤ 127 := Nat.not_le.2 h
  have hlt : c.val.toNat < 2 ^ 32 := c.val.toNat_lt
  rw [String.utf8EncodeChar, if_neg hval] at hb
  repeat' split at hb
  all_goals
    simp only [List.mem_cons, List.not_mem_nil, or_false] at hb
    rcases hb with rfl | rfl | rfl | rfl
  all_goals
    simp only [UInt8.toNat_ofNat']
    omega

theorem length_encode_of_lt {text : List Char} (h : ∀ c ∈ text, c.toNat < 128) :
    (encode text).length = text.length := by
  induction text with
  | nil => rfl
  | cons c text ih =>
    obtain ⟨hc, htext⟩ := List.forall_mem_cons.1 h
    rw [encode_cons, List.length_append, encodeChar_of_lt hc, ih htext, List.length_cons]
    exact Nat.add_comm 1 _

end Utf8

namespace HexInput

open Numeral (IsDigit IsNumeral Spells)

def isBlankChar (c : Char) : Bool := c == ' ' || c == '\t' || c == '\n' || c == '\x0c' || c == '\r'

def significant (text : String) : List Char := text.toList.filter (!isBlankChar ·)

def IsPair (a b : Char) (byte : UInt8) : Prop :=
  ∃ high low, IsDigit 16 a high ∧ IsDigit 16 b low ∧ byte.toNat = 16 * high + low

def IsSigned (a b : Char) (byte : UInt8) : Prop := a = '+' ∧ IsDigit 16 b byte.toNat

/-- Characters, taken two by two, and the byte that each two of them stand for. -/
inductive Pairs (reads : Char → Char → UInt8 → Prop) : List Char → List UInt8 → Prop where
  | nil : Pairs reads [] []
  | pair {a b : Char} {byte : UInt8} {rest : List Char} {bytes : List UInt8} : reads a b byte →
      Pairs reads rest bytes → Pairs reads (a :: b :: rest) (byte :: bytes)

variable {a b : Char} {byte : UInt8} {cs : List Char} {bytes : List UInt8} {n : Nat}

/-! ### Blanks -/

theorem isBlank_ascii : ∀ n < 128, isBlank n.toUInt8 = isBlankChar (Char.ofNat n) := by
  decide +kernel

theorem lt_of_isBlank {b : UInt8} (h : isBlank b = true) : b.toNat < 128 := by
  simp only [isBlank, Bool.or_eq_true, beq_iff_eq] at h
  rcases h with (((rfl | rfl) | rfl) | rfl) | rfl <;> decide

theorem lt_of_isBlankChar {c : Char} (h : isBlankChar c = true) : c.toNat < 128 := by
  simp only [isBlankChar, Bool.or_eq_true, beq_iff_eq] at h
  rcases h with (((rfl | rfl) | rfl) | rfl) | rfl <;> decide

theorem filter_encodeChar (c : Char) : (String.utf8EncodeChar c).filter (!isBlank ·) =
    if isBlankChar c then [] else String.utf8EncodeChar c := by
  by_cases hc : c.toNat < 128
  · have hblank := isBlank_ascii c.toNat hc
    rw [Char.ofNat_toNat] at hblank
    rw [Utf8.encodeChar_of_lt hc, ← hblank]
    cases h : isBlank c.toNat.toUInt8 <;> simp [h]
  · have hbytes : ∀ b ∈ String.utf8EncodeChar c, (!isBlank b) = true := by
      intro b hb
      rw [Bool.not_eq_true']
      by_contra hblank
      have hlt := lt_of_isBlank (eq_true_of_ne_false hblank)
      have hle := Utf8.le_of_mem_encodeChar (Nat.not_lt.1 hc) hb
      omega
    rw [if_neg fun hblank => hc (lt_of_isBlankChar hblank), List.filter_eq_self.2 hbytes]

theorem filter_encode (text : List Char) :
    (Utf8.encode text).filter (!isBlank ·) = Utf8.encode (text.filter (!isBlankChar ·)) := by
  induction text with
  | nil => rfl
  | cons c text ih =>
    rw [Utf8.encode_cons, List.filter_append, filter_encodeChar, ih, List.filter_cons]
    cases isBlankChar c <;> rfl

/-! ### One pair -/

theorem isNumeral_pair_iff : IsNumeral 16 [a, b] n ↔
    (∃ high low, IsDigit 16 a high ∧ IsDigit 16 b low ∧ n = 16 * high + low) ∨
      (a = '+' ∧ IsDigit 16 b n) := by
  by_cases hplus : a = '+'
  · subst hplus
    have hnone : ∀ high, ¬ IsDigit 16 '+' high := fun _ => Numeral.not_isDigit_plus (by decide)
    simp [Numeral.isNumeral_plus_iff, Numeral.spells_single_iff, hnone]
  · have hsign : ∀ rest, [a, b] ≠ '+' :: rest := fun rest heq => hplus (List.cons.inj heq).1
    simp [Numeral.isNumeral_iff_of_no_plus hsign, Numeral.spells_pair_iff, hplus, Nat.mul_comm]

theorem isNumeral_toNat_iff :
    IsNumeral 16 [a, b] byte.toNat ↔ IsPair a b byte ∨ IsSigned a b byte := isNumeral_pair_iff

/-- Only two ASCII characters are ever read as a byte. -/
theorem readPair_eq_ok_iff {x y : UInt8} : readPair x y = .ok byte ↔
    ∃ a b, Utf8.encode [a, b] = [x, y] ∧ (IsPair a b byte ∨ IsSigned a b byte) := by
  have hread := fun pair n => @Numeral.read_eq_ok_iff 16 256 n pair (by decide) (by decide)
  constructor
  · intro h
    unfold readPair at h
    split at h
    · next pair hpair =>
      split at h
      · next n hn =>
        cases h
        obtain ⟨hnumeral, hlt⟩ := (hread pair n).1 hn
        have hencode := Utf8.encode_of_decode? hpair
        have hlength : pair.length = 2 := by
          rw [← Utf8.length_encode_of_lt fun c hc => hnumeral.toNat_lt (by decide) hc, hencode]
          rfl
        obtain ⟨a, b, rfl⟩ := List.length_eq_two.1 hlength
        have hbyte : n.toUInt8.toNat = n := UInt8.toNat_ofNat_of_lt' hlt
        exact ⟨a, b, hencode, isNumeral_toNat_iff.1 (hbyte.symm ▸ hnumeral)⟩
      · cases h
    · cases h
  · rintro ⟨a, b, hencode, hpair⟩
    have hdecode : Utf8.decode? [x, y] = some [a, b] := hencode ▸ Utf8.decode?_encode [a, b]
    have hok := (hread [a, b] byte.toNat).2 ⟨isNumeral_toNat_iff.2 hpair, byte.toNat_lt⟩
    rw [readPair, hdecode]
    simp [hok]

/-! ### All pairs -/

abbrev IsRead (a b : Char) (byte : UInt8) : Prop := IsPair a b byte ∨ IsSigned a b byte

theorem IsRead.encode (h : IsRead a b byte) : ∃ x y, readPair x y = .ok byte ∧
    ∀ rest, Utf8.encode (a :: b :: rest) = x :: y :: Utf8.encode rest := by
  have hnumeral := isNumeral_toNat_iff.2 h
  have hlength := Utf8.length_encode_of_lt fun c hc => hnumeral.toNat_lt (by decide) hc
  obtain ⟨x, y, hencode⟩ := List.length_eq_two.1 hlength
  refine ⟨x, y, readPair_eq_ok_iff.2 ⟨a, b, hencode, h⟩, ?_⟩
  intro rest
  have happend := Utf8.encode_append [a, b] rest
  rwa [hencode] at happend

theorem Pairs.even_encode (h : Pairs IsRead cs bytes) : (Utf8.encode cs).length % 2 = 0 := by
  induction h with
  | nil => rfl
  | pair hpair _ ih =>
    obtain ⟨x, y, -, hencode⟩ := IsRead.encode hpair
    rw [hencode, List.length_cons, List.length_cons]
    omega

theorem Pairs.readPairs_encode (h : Pairs IsRead cs bytes) :
    readPairs (Utf8.encode cs) = .ok bytes := by
  induction h with
  | nil => rfl
  | pair hpair _ ih =>
    obtain ⟨x, y, hread, hencode⟩ := IsRead.encode hpair
    rw [hencode, readPairs, hread]
    simp only [ih]

/-- Whatever is read was written with such pairs. -/
theorem exists_pairs_of_readPairs {digits : List UInt8} (h : readPairs digits = .ok bytes)
    (heven : digits.length % 2 = 0) : ∃ cs, Utf8.encode cs = digits ∧ Pairs IsRead cs bytes := by
  fun_induction readPairs digits generalizing bytes with
  | case1 | case2 => cases h
  | case3 x y rest byte hpair _ hrest ih =>
    cases h
    rw [List.length_cons, List.length_cons] at heven
    obtain ⟨a, b, hencode, hread⟩ := readPair_eq_ok_iff.1 hpair
    obtain ⟨cs, hcs, hpairs⟩ := ih hrest (by omega)
    have happend := Utf8.encode_append [a, b] cs
    rw [hencode, hcs] at happend
    exact ⟨a :: b :: cs, happend, .pair hread hpairs⟩
  | case4 digits hshort =>
    cases h
    cases digits with
    | nil => exact ⟨[], rfl, .nil⟩
    | cons x rest =>
      cases rest with
      | nil => cases heven
      | cons y rest => exact absurd rfl (hshort x y rest)

theorem decode_eq_ok_iff (text : String) :
    decode text = .ok bytes ↔ Pairs IsRead (significant text) bytes := by
  have hdigits : (Utf8.encode text.toList).filter (!isBlank ·) = Utf8.encode (significant text) :=
    filter_encode text.toList
  unfold decode
  rw [hdigits]
  dsimp only
  constructor
  · intro h
    split at h
    · cases h
    · next heven =>
      obtain ⟨cs, hcs, hpairs⟩ := exists_pairs_of_readPairs h (Decidable.not_not.1 heven)
      rwa [Utf8.encode_inj.1 hcs] at hpairs
  · intro h
    rw [if_neg (Decidable.not_not.2 h.even_encode)]
    exact h.readPairs_encode

/-! ### Digits only -/

theorem Pairs.imp {reads other : Char → Char → UInt8 → Prop} (h : Pairs reads cs bytes)
    (himp : ∀ a b byte, a ∈ cs → reads a b byte → other a b byte) : Pairs other cs bytes := by
  induction h with
  | nil => exact .nil
  | pair hpair _ ih =>
    refine .pair (himp _ _ _ List.mem_cons_self hpair) (ih fun a b byte ha => ?_)
    exact himp a b byte (List.mem_cons_of_mem _ (List.mem_cons_of_mem _ ha))

theorem Pairs.exists_digit (h : Pairs IsPair cs bytes) :
    (∀ c ∈ cs, ∃ d, IsDigit 16 c d) ∧ cs.length % 2 = 0 := by
  induction h with
  | nil => exact ⟨fun _ hc => absurd hc List.not_mem_nil, rfl⟩
  | pair hpair _ ih =>
    obtain ⟨high, low, ha, hb, -⟩ := hpair
    obtain ⟨hdigits, heven⟩ := ih
    refine ⟨List.forall_mem_cons.2 ⟨⟨high, ha⟩, List.forall_mem_cons.2 ⟨⟨low, hb⟩, hdigits⟩⟩, ?_⟩
    rw [List.length_cons, List.length_cons]
    omega

theorem exists_pairs : ∀ {cs : List Char}, (∀ c ∈ cs, ∃ d, IsDigit 16 c d) → cs.length % 2 = 0 →
    ∃ bytes, Pairs IsPair cs bytes
  | [], _, _ => ⟨[], .nil⟩
  | [_], _, heven => by cases heven
  | a :: b :: rest, hdigits, heven => by
    obtain ⟨⟨high, ha⟩, ⟨low, hb⟩, hrest⟩ : (∃ d, IsDigit 16 a d) ∧ (∃ d, IsDigit 16 b d) ∧
        ∀ c ∈ rest, ∃ d, IsDigit 16 c d := by simpa using hdigits
    rw [List.length_cons, List.length_cons] at heven
    obtain ⟨bytes, hpairs⟩ := exists_pairs hrest (by omega)
    have hbyte : (16 * high + low).toUInt8.toNat = 16 * high + low :=
      UInt8.toNat_ofNat_of_lt' (by have := ha.1; have := hb.1; show _ < 256; omega)
    exact ⟨_, .pair ⟨high, low, ha, hb, hbyte⟩ hpairs⟩

/-- Where there is no sign, all that is read is digits. -/
theorem pairs_isPair_iff :
    Pairs IsPair cs bytes ↔ Pairs IsRead cs bytes ∧ '+' ∉ cs := by
  constructor
  · intro h
    refine ⟨h.imp fun _ _ _ _ => .inl, ?_⟩
    intro hplus
    obtain ⟨d, hd⟩ := h.exists_digit.1 '+' hplus
    exact Numeral.not_isDigit_plus (by decide) hd
  · rintro ⟨h, hplus⟩
    refine h.imp fun a b byte ha hread => ?_
    rcases hread with hpair | ⟨rfl, -⟩
    · exact hpair
    · exact absurd ha hplus

/-- A text is read as bytes where it consists of pairs of digits, blanks aside, or of a plus sign
and a digit in the place of some of them. Without a plus sign this leaves the texts of an even
number of digits, which are read as the bytes that they spell. -/
theorem decode_exact (text : String) :
    (∀ bytes, decode text = .ok bytes ↔
      Pairs (fun a b byte => IsPair a b byte ∨ IsSigned a b byte) (significant text) bytes) ∧
    (∀ bytes, Pairs IsPair (significant text) bytes ↔
      decode text = .ok bytes ∧ '+' ∉ text.toList) ∧
    ((∃ bytes, Pairs IsPair (significant text) bytes) ↔
      (∀ c ∈ significant text, ∃ d, IsDigit 16 c d) ∧ (significant text).length % 2 = 0) := by
  have hplus : '+' ∈ significant text ↔ '+' ∈ text.toList := by
    rw [significant, List.mem_filter]
    exact and_iff_left rfl
  refine ⟨fun bytes => decode_eq_ok_iff text, ?_, ?_⟩
  · intro bytes
    rw [pairs_isPair_iff, decode_eq_ok_iff, hplus]
  · constructor
    · rintro ⟨bytes, hpairs⟩
      exact hpairs.exists_digit
    · rintro ⟨hdigits, heven⟩
      exact exists_pairs hdigits heven

/-- A byte is read from a sign and one digit, though the sign is none. -/
theorem decode_plus_five :
    decode "+5" = .ok [5] ∧ '+' ∈ significant "+5" ∧ ¬ ∃ d, IsDigit 16 '+' d := by
  refine ⟨by decide +kernel, by decide, ?_⟩
  rintro ⟨d, hd⟩
  exact Numeral.not_isDigit_plus (by decide) hd

end HexInput

end Disassembly
