import Disassembly.Text.Numeral
/-!
# Numerals, written and read back

The digits of a number are read back as that number, in any radix that has letters enough and
below any bound above it.
-/
namespace Disassembly.Numeral

variable {radix bound n : Nat} {text : List Char}

theorem digit?_digitChar : ∀ radix ≤ 16, ∀ d < radix, digit? radix d.digitChar = some d := by
  decide

theorem exists_digit_of_mem_toDigits (hbase : 1 < radix) {c : Char}
    (h : c ∈ Nat.toDigits radix n) : ∃ d < radix, c = d.digitChar := by
  induction n using Nat.strongRecOn with
  | ind n ih =>
    rw [Nat.toDigits_eq_if hbase] at h
    by_cases hsmall : n < radix
    · rw [if_pos hsmall, List.mem_singleton] at h
      exact ⟨n, hsmall, h⟩
    · rw [if_neg hsmall, List.mem_append, List.mem_singleton] at h
      rcases h with h | h
      · exact ih _ (Nat.div_lt_self (by omega) hbase) h
      · exact ⟨n % radix, Nat.mod_lt n (by omega), h⟩

theorem digit?_plus (radix : Nat) : digit? radix '+' = none := rfl

theorem readDigits_append (acc : Nat) (text rest : List Char) :
    readDigits radix bound acc (text ++ rest) =
      (readDigits radix bound acc text).bind fun n => readDigits radix bound n rest := by
  induction text generalizing acc with
  | nil => rfl
  | cons c text ih =>
    rw [List.cons_append, readDigits, readDigits]
    cases digit? radix c with
    | none => rfl
    | some d =>
      by_cases hbound : acc * radix + d < bound
      · simp only [if_pos hbound, ih]
      · simp only [if_neg hbound]
        rfl

theorem readDigits_digit {acc d : Nat} (hradix : radix ≤ 16) (hd : d < radix)
    (hbound : acc * radix + d < bound) :
    readDigits radix bound acc [d.digitChar] = .ok (acc * radix + d) := by
  simp only [readDigits, digit?_digitChar radix hradix d hd, if_pos hbound]

theorem readDigits_toDigits (hbase : 1 < radix) (hradix : radix ≤ 16) (hn : n < bound) :
    readDigits radix bound 0 (Nat.toDigits radix n) = .ok n := by
  induction n using Nat.strongRecOn with
  | ind n ih =>
    rw [Nat.toDigits_eq_if hbase]
    by_cases hsmall : n < radix
    · rw [if_pos hsmall, readDigits_digit hradix hsmall (by omega), Nat.zero_mul, Nat.zero_add]
    · have hquotient : n / radix < n := Nat.div_lt_self (by omega) hbase
      have hvalue : n / radix * radix + n % radix = n := Nat.div_add_mod' n radix
      have hdigit : n % radix < radix := Nat.mod_lt n (by omega)
      rw [if_neg hsmall, readDigits_append, ih _ hquotient (by omega)]
      show readDigits radix bound (n / radix) [(n % radix).digitChar] = .ok n
      rw [readDigits_digit hradix hdigit (by omega), hvalue]

theorem read_of_readDigits (hne : text ≠ []) (h : readDigits radix bound 0 text = .ok n) :
    read radix bound text = .ok n := by
  have hplus : ∀ rest, readDigits radix bound 0 ('+' :: rest) = .error .invalidDigit := by
    intro rest
    rw [readDigits, digit?_plus]
  unfold read
  split
  · exact absurd rfl hne
  · rw [hplus] at h
    cases h
  · rw [hplus] at h
    cases h
  · exact h

theorem read_toDigits (hbase : 1 < radix) (hradix : radix ≤ 16) (hn : n < bound) :
    read radix bound (Nat.toDigits radix n) = .ok n :=
  read_of_readDigits Nat.toDigits_ne_nil (readDigits_toDigits hbase hradix hn)

end Disassembly.Numeral
