import Disassembly.Json.Reader
import Disassembly.Json.Value
import Disassembly.Proofs.Text.Numerals
/-!
# Texts and numbers, written and read back

A reader is right about a written form if it finds the value wherever the form stands, with blanks
before it or not, and leaves what is behind it. For numbers this takes that nothing behind them
could belong to the number. Every string of characters survives its escapes, and every natural
number of one word its digits.
-/
namespace Disassembly.Json

variable {α β : Type} {text rest written behind : List Char} {c : Char}

theorem skipBlanks_cons (h : isBlank c = false) (text : List Char) :
    skipBlanks (c :: text) = c :: text := List.dropWhile_cons_of_neg (by simp [h])

theorem skipBlanks_append {blanks : List Char} (h : ∀ c ∈ blanks, isBlank c = true)
    (text : List Char) : skipBlanks (blanks ++ text) = skipBlanks text :=
  List.dropWhile_append_of_pos h

theorem length_skipBlanks_le (text : List Char) : (skipBlanks text).length ≤ text.length :=
  (List.dropWhile_suffix _).length_le

def continuesNumber (c : Char) : Bool := c.isDigit || c == '.' || c == 'e' || c == 'E'

def Ends (text : List Char) : Prop := ∀ c, text.head? = some c → continuesNumber c = false

theorem ends_nil : Ends [] := by
  intro c h
  cases h

theorem ends_cons (h : continuesNumber c = false) : Ends (c :: text) := by
  intro d hd
  cases hd
  exact h

theorem ends_of_skipBlanks (h : skipBlanks text = c :: rest) (hc : continuesNumber c = false) :
    Ends text := by
  cases text with
  | nil => exact ends_nil
  | cons d text =>
    apply ends_cons
    by_cases hblank : isBlank d = true
    · simp only [isBlank, Bool.or_eq_true, beq_iff_eq] at hblank
      rcases hblank with ((rfl | rfl) | rfl) | rfl <;> rfl
    · rw [skipBlanks_cons (by simpa using hblank)] at h
      cases h
      exact hc

/-- A written value starts neither with a blank nor as an array would end. -/
def Starts (written : List Char) : Prop :=
  ∃ c tail, written = c :: tail ∧ isBlank c = false ∧ c ≠ ']'

theorem Starts.skipBlanks_written (h : Starts written) (rest : List Char) :
    skipBlanks (written ++ rest) = written ++ rest := by
  obtain ⟨c, tail, rfl, hblank, -⟩ := h
  exact skipBlanks_cons hblank _

/-- A reader finds the value of a written form and leaves what is behind it. -/
structure Reads (read : List Char → Reading α) (written : List Char) (value : α) : Prop where
  starts : Starts written
  found {text rest : List Char} (htext : skipBlanks text = written ++ rest) (hrest : Ends rest) :
    read text = .ok (value, rest)

theorem Reads.imp {read : List Char → Reading α} {read' : List Char → Reading β} {value : α}
    {value' : β} (h : Reads read written value)
    (himp : ∀ text rest, read text = .ok (value, rest) → read' text = .ok (value', rest)) :
    Reads read' written value' where
  starts := h.starts
  found htext hrest := himp _ _ (h.found htext hrest)

theorem Reads.map {read : List Char → Reading α} {value : α} (h : Reads read written value)
    (change : α → β) :
    Reads (fun text => reading change (read text)) written (change value) := by
  refine h.imp fun text rest hfound => ?_
  rw [hfound]
  rfl

theorem Reads.option {read : List Char → Reading α} {value : α} (h : Reads read written value)
    (hnull : written.head? ≠ some 'n') : Reads (readOption read) written (some value) where
  starts := h.starts
  found := by
    intro text rest htext hrest
    obtain ⟨c, tail, rfl, -⟩ := h.starts
    rw [readOption, htext]
    split
    · next hc =>
      cases hc
      exact absurd rfl hnull
    · rw [h.found ((h.starts.skipBlanks_written rest).trans rfl) hrest]

/-! ### Texts -/

theorem readHex4_hexByte (byte : UInt8) (rest : List Char) :
    readHex4 ('0' :: '0' :: (Numeral.hexByte byte ++ rest)) = .ok (byte.toNat, rest) := by
  have hlt := byte.toNat_lt
  have hhigh := Numeral.digit?_digitChar 16 (Nat.le_refl 16) (byte.toNat / 16) (by omega)
  have hlow := Numeral.digit?_digitChar 16 (Nat.le_refl 16) (byte.toNat % 16) (by omega)
  have hzero : Numeral.digit? 16 '0' = some 0 := by decide
  simp only [Numeral.hexByte, List.cons_append, List.nil_append, readHex4, hzero, hhigh, hlow]
  congr 2
  omega

theorem readEscape_control (h : c.toNat < 0x20) (rest : List Char) :
    readEscape ('u' :: '0' :: '0' :: (Numeral.hexByte c.toNat.toUInt8 ++ rest)) =
      .ok (c, rest) := by
  have hbyte : c.toNat.toUInt8.toNat = c.toNat := by
    rw [Nat.toUInt8_eq, UInt8.toNat_ofNat']
    omega
  have hshort : shortEscape? 'u' = none := rfl
  have htrailing : isTrailingSurrogate c.toNat = false := by
    simp only [isTrailingSurrogate, Bool.and_eq_false_iff, decide_eq_false_iff_not]
    omega
  have hleading : isLeadingSurrogate c.toNat = false := by
    simp only [isLeadingSurrogate, Bool.and_eq_false_iff, decide_eq_false_iff_not]
    omega
  simp only [readEscape, hshort, if_true, readCodePoint, readHex4_hexByte, hbyte, htrailing,
    hleading, Bool.false_eq_true, if_false, Char.ofNat_toNat]

theorem escapeChar_cases (c : Char) :
    (c ≠ '"' ∧ c ≠ '\\' ∧ ¬ c.toNat < 0x20 ∧ escapeChar c = [c]) ∨
      ∃ escape, escapeChar c = '\\' :: escape ∧
        ∀ rest, readEscape (escape ++ rest) = .ok (c, rest) := by
  unfold escapeChar
  -- the escapes of one letter
  iterate 7 (split; · next h => subst h; exact .inr ⟨_, rfl, fun _ => rfl⟩)
  split
  · next h => exact .inr ⟨_, rfl, fun rest => readEscape_control h rest⟩
  · next hquote hbackslash _ _ _ _ _ hcontrol => exact .inl ⟨hquote, hbackslash, hcontrol, rfl⟩

theorem readString_plain (hquote : c ≠ '"') (hbackslash : c ≠ '\\') (hcontrol : ¬ c.toNat < 0x20)
    {string : List Char} (h : readString text = .ok (string, rest)) :
    readString (c :: text) = .ok (c :: string, rest) := by
  rw [readString, if_neg hquote, if_neg hbackslash, if_neg hcontrol, h]

theorem readString_escaped (hescape : readEscape text = .ok (c, behind)) {string : List Char}
    (h : readString behind = .ok (string, rest)) :
    readString ('\\' :: text) = .ok (c :: string, rest) := by
  rw [readString, if_neg (by decide), if_pos rfl]
  split
  · next hfault => rw [hescape] at hfault; cases hfault
  · next hread =>
    rw [hescape] at hread
    cases hread
    rw [h]

/-- Whatever its characters, a string is read back up to its closing quote. -/
theorem readString_escape (string rest : List Char) :
    readString (string.flatMap escapeChar ++ '"' :: rest) = .ok (string, rest) := by
  induction string with
  | nil =>
    rw [List.flatMap_nil, List.nil_append, readString]
    rfl
  | cons c string ih =>
    rw [List.flatMap_cons, List.append_assoc]
    rcases escapeChar_cases c with
      ⟨hquote, hbackslash, hcontrol, hplain⟩ | ⟨escape, hescaped, hread⟩
    · rw [hplain]
      exact readString_plain hquote hbackslash hcontrol ih
    · rw [hescaped]
      exact readString_escaped (hread _) ih

theorem quoted_append (string : String) (rest : List Char) :
    quoted string ++ rest = '"' :: (string.toList.flatMap escapeChar ++ '"' :: rest) := by
  simp [quoted]

theorem starts_quoted (string : String) : Starts (quoted string) :=
  ⟨_, _, rfl, rfl, by decide⟩

theorem reads_text (string : String) : Reads readText (quoted string) string where
  starts := starts_quoted string
  found := by
    intro text rest htext _
    rw [quoted_append] at htext
    rw [readText, htext]
    simp only [readString_escape, String.ofList_toList]

theorem readKey_quoted {name : String} (h : skipBlanks text = quoted name ++ rest) :
    readKey text = .ok (name, rest) := by
  rw [quoted_append] at h
  rw [readKey, h]
  simp only [readString_escape, String.ofList_toList]

theorem reads_choice {alternatives : List (String × α)} {name : String} {value : α}
    (h : alternatives.lookup name = some value) :
    Reads (readChoice alternatives) (quoted name) value where
  starts := starts_quoted name
  found := by
    intro text rest htext _
    rw [quoted_append] at htext
    rw [readChoice, htext]
    simp only [readString_escape, String.ofList_toList, h]
    rfl

theorem reads_bool (layout : Layout) (b : Bool) : Reads readBool (write layout (.bool b)) b := by
  constructor
  · cases b <;> exact ⟨_, _, rfl, rfl, by decide⟩
  · intro text rest htext _
    rw [readBool, htext]
    cases b <;> rfl

/-! ### Numbers -/

theorem le_ofDigitChars (digits : List Char) (start : Nat) :
    start ≤ Nat.ofDigitChars 10 digits start := by
  induction digits generalizing start with
  | nil => exact Nat.le_refl _
  | cons c digits ih =>
    rw [Nat.ofDigitChars_cons]
    exact Nat.le_trans (by omega) (ih _)

theorem accumulate_of_lt (digits : List Char) (start : Nat)
    (h : Nat.ofDigitChars 10 digits start < UInt64.size) :
    accumulate start digits = (Nat.ofDigitChars 10 digits start, digits.length) := by
  induction digits generalizing start with
  | nil => rfl
  | cons c digits ih =>
    rw [Nat.ofDigitChars_cons, Nat.mul_comm 10] at h ⊢
    have hnext := Nat.lt_of_le_of_lt (le_ofDigitChars digits _) h
    rw [accumulate]
    simp only [if_pos hnext, ih _ h, List.length_cons]

theorem toDigits_head {n : Nat} (hn : n ≠ 0) :
    ∃ c digits, Nat.toDigits 10 n = c :: digits ∧ c ≠ '0' := by
  induction n using Nat.strongRecOn with
  | ind n ih =>
    have hdigit : ∀ d < 10, d ≠ 0 → d.digitChar ≠ '0' := by decide
    rw [Nat.toDigits_eq_if (by decide)]
    split
    · next hlt => exact ⟨_, _, rfl, hdigit n hlt hn⟩
    · next hge =>
      obtain ⟨c, digits, hdigits, hne⟩ := ih (n / 10) (by omega) (by omega)
      exact ⟨c, _, by rw [hdigits]; rfl, hne⟩

theorem Ends.takeWhile_digits {digits : List Char} (hdigits : ∀ c ∈ digits, c.isDigit = true)
    (hrest : Ends rest) :
    (digits ++ rest).takeWhile Char.isDigit = digits ∧
      (digits ++ rest).dropWhile Char.isDigit = rest := by
  rw [List.takeWhile_append_of_pos hdigits, List.dropWhile_append_of_pos hdigits]
  cases rest with
  | nil => simp
  | cons c rest =>
    have hc : continuesNumber c = false := hrest c rfl
    have hdigit : ¬ c.isDigit = true := by simp_all [continuesNumber]
    rw [List.takeWhile_cons_of_neg hdigit, List.dropWhile_cons_of_neg hdigit, List.append_nil]
    exact ⟨rfl, rfl⟩

theorem readUnsignedNumber_natural {digits : List Char}
    (hdigits : ∀ d ∈ c :: digits, d.isDigit = true) (hzero : c = '0' → digits = [])
    (hword : Nat.ofDigitChars 10 (c :: digits) 0 < UInt64.size) (hrest : Ends rest) :
    readUnsignedNumber false (c :: digits ++ rest) =
      .ok (.natural (Nat.ofDigitChars 10 (c :: digits) 0), rest) := by
  obtain ⟨htake, hdrop⟩ := Ends.takeWhile_digits hdigits hrest
  have hlead : ¬ (c = '0' ∧ (c :: digits).length ≠ 1) := by
    rintro ⟨rfl, hlength⟩
    exact hlength (by rw [hzero rfl]; rfl)
  simp only [List.cons_append] at htake hdrop ⊢
  simp only [readUnsignedNumber, htake, hdrop, accumulate_of_lt _ 0 hword, Nat.sub_self]
  rw [if_neg (by simp), if_neg hlead]
  cases rest with
  | nil => rfl
  | cons d rest =>
    have hd : continuesNumber d = false := hrest d rfl
    split
    · next h => cases h; cases hd
    · next h => cases h; cases hd
    · next h => cases h; cases hd
    · rfl

theorem toDigits_cases (n : Nat) : ∃ c digits, Nat.toDigits 10 n = c :: digits ∧
    (∀ d ∈ c :: digits, d.isDigit = true) ∧ (c = '0' → digits = []) := by
  have hdigits : ∀ d ∈ Nat.toDigits 10 n, d.isDigit = true := fun d hd =>
    Nat.isDigit_of_mem_toDigits (by decide) (by decide) hd
  by_cases hzero : n = 0
  · subst hzero
    exact ⟨'0', [], rfl, hdigits, fun _ => rfl⟩
  · obtain ⟨c, digits, h, hne⟩ := toDigits_head hzero
    exact ⟨c, digits, h, h ▸ hdigits, fun hc => absurd hc hne⟩

/-- The digits of a word, up to where the number ends, are the number. -/
theorem readNumber_digits {n : Nat} (hn : n < UInt64.size) (hrest : Ends rest) :
    readNumber (Nat.toDigits 10 n ++ rest) = .ok (.natural n, rest) := by
  obtain ⟨c, digits, hcons, hdigits, hzero⟩ := toDigits_cases n
  have hvalue : Nat.ofDigitChars 10 (c :: digits) 0 = n :=
    hcons ▸ Nat.ofDigitChars_toDigits (by decide) (by decide)
  have hread := readUnsignedNumber_natural hdigits hzero (hvalue.symm ▸ hn) hrest
  rw [hvalue] at hread
  rw [hcons, ← hread, List.cons_append, readNumber]
  rintro rest ⟨⟩
  cases hdigits '-' List.mem_cons_self

theorem not_blank_of_isDigit (h : c.isDigit = true) : isBlank c = false ∧ c ≠ ']' := by
  constructor
  · refine Bool.eq_false_iff.mpr fun hblank => ?_
    simp only [isBlank, Bool.or_eq_true, beq_iff_eq] at hblank
    rcases hblank with ((rfl | rfl) | rfl) | rfl <;> cases h
  · rintro rfl
    cases h

theorem reads_nat {n bound : Nat} (hn : n < bound) (hbound : bound ≤ UInt64.size) :
    Reads (readNat bound) (Nat.toDigits 10 n) n := by
  obtain ⟨c, digits, hcons, hdigits, -⟩ := toDigits_cases n
  have hc := hdigits c List.mem_cons_self
  constructor
  · exact ⟨c, digits, hcons, not_blank_of_isDigit hc⟩
  · intro text rest htext hrest
    have hread := readNumber_digits (Nat.lt_of_lt_of_le hn hbound) hrest
    rw [hcons, List.cons_append] at hread htext
    rw [readNat, htext]
    simp only [if_pos (Or.inr hc), hread, if_pos hn]

theorem reads_word {ofNat : Nat → α} {n bound : Nat} {word : α} (hn : n < bound)
    (hbound : bound ≤ UInt64.size) (hword : ofNat n = word) :
    Reads (fun text => reading ofNat (readNat bound text)) (Nat.toDigits 10 n) word := by
  rw [← hword]
  exact (reads_nat hn hbound).map ofNat

end Disassembly.Json
