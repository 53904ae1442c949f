import Disassembly.Proofs.Text.Numerals
import Mathlib.Data.List.Forall2
import Mathlib.Data.List.Induction
import Mathlib.Data.Nat.Digits.Defs
/-!
# Digits and the numbers they spell

Which texts are numerals, and of which number, is said here by an alphabet of digits and their exact
sum. Reading agrees with this below its bound, however many zeros stand in front, and refuses
everything else.
-/
namespace Disassembly.Numeral

def lowerDigits : List Char := "0123456789abcdef".toList
def upperDigits : List Char := "0123456789ABCDEF".toList

def IsDigit (radix : Nat) (c : Char) (d : Nat) : Prop :=
  d < radix ∧ (lowerDigits[d]? = some c ∨ upperDigits[d]? = some c)

instance (radix : Nat) (c : Char) (d : Nat) : Decidable (IsDigit radix c d) :=
  inferInstanceAs (Decidable (_ ∧ _))

/-- The number that digits spell, the last of them counting least. -/
def Spells (radix : Nat) (text : List Char) (n : Nat) : Prop :=
  ∃ ds, List.Forall₂ (IsDigit radix) text.reverse ds ∧ Nat.ofDigits radix ds = n

def IsNumeral (radix : Nat) (text : List Char) (n : Nat) : Prop :=
  ∃ digits, digits ≠ [] ∧ (text = digits ∨ text = '+' :: digits) ∧ Spells radix digits n

variable {radix bound n d : Nat} {c : Char} {text : List Char}

/-! ### Single digits -/

theorem digit?_eq_some_of_le (hradix : radix ≤ 16) :
    digit? radix c = some d ↔ d < radix ∧ digit? 16 c = some d := by
  simp only [digit?, Option.filter_eq_some_iff, decide_eq_true_eq]
  constructor
  · rintro ⟨hvalue, hd⟩
    exact ⟨hd, hvalue, by omega⟩
  · rintro ⟨hd, hvalue, -⟩
    exact ⟨hvalue, hd⟩

theorem toNat_lt_of_digit? (h : digit? radix c = some d) : c.toNat < 128 := by
  unfold digit? at h
  dsimp only at h
  split at h
  · next hdigit => exact Nat.lt_of_le_of_lt (UInt32.le_iff_toNat_le.1 hdigit.2) (by decide)
  · split at h
    · next hletter => exact Nat.lt_of_le_of_lt (UInt32.le_iff_toNat_le.1 hletter.2) (by decide)
    · split at h
      · next hletter => exact Nat.lt_of_le_of_lt (UInt32.le_iff_toNat_le.1 hletter.2) (by decide)
      · cases h

theorem isDigit_of_digit? : ∀ n < 128, ∀ d < 16,
    digit? 16 (Char.ofNat n) = some d → IsDigit 16 (Char.ofNat n) d := by
  decide +kernel

theorem digit?_of_isDigit : ∀ d < 16, lowerDigits[d]?.bind (digit? 16) = some d ∧
    upperDigits[d]?.bind (digit? 16) = some d := by
  decide

theorem digit?_eq_some_iff (hradix : radix ≤ 16) : digit? radix c = some d ↔ IsDigit radix c d := by
  rw [digit?_eq_some_of_le hradix, IsDigit]
  refine and_congr_right fun hd => ?_
  have hd16 : d < 16 := by omega
  constructor
  · intro h
    have hdigit := isDigit_of_digit? c.toNat (toNat_lt_of_digit? h) d hd16
    rw [Char.ofNat_toNat] at hdigit
    exact (hdigit h).2
  · obtain ⟨hlower, hupper⟩ := digit?_of_isDigit d hd16
    rintro (h | h)
    · rwa [h] at hlower
    · rwa [h] at hupper

/-! ### Numbers -/

theorem spells_nil_iff : Spells radix [] n ↔ n = 0 := by
  simp [Spells, eq_comm]

theorem spells_concat_iff : Spells radix (text ++ [c]) n ↔
    ∃ m d, Spells radix text m ∧ IsDigit radix c d ∧ n = m * radix + d := by
  simp only [Spells, List.reverse_append, List.reverse_singleton, List.singleton_append,
    List.forall₂_cons_left_iff]
  constructor
  · rintro ⟨-, ⟨d, ds, hd, hds, rfl⟩, rfl⟩
    exact ⟨_, d, ⟨ds, hds, rfl⟩, hd, by rw [Nat.ofDigits_cons, Nat.add_comm, Nat.mul_comm]⟩
  · rintro ⟨-, d, ⟨ds, hds, rfl⟩, hd, rfl⟩
    exact ⟨d :: ds, ⟨d, ds, hd, hds, rfl⟩, by rw [Nat.ofDigits_cons, Nat.add_comm, Nat.mul_comm]⟩

theorem spells_single_iff : Spells radix [c] n ↔ IsDigit radix c n := by
  rw [← List.nil_append [c], spells_concat_iff]
  simp [spells_nil_iff]

theorem spells_pair_iff {a b : Char} : Spells radix [a, b] n ↔
    ∃ high low, IsDigit radix a high ∧ IsDigit radix b low ∧ n = high * radix + low := by
  rw [← List.singleton_append, spells_concat_iff]
  simp [spells_single_iff]

theorem readDigits_single_iff (hradix : radix ≤ 16) {acc : Nat} :
    readDigits radix bound acc [c] = .ok n ↔
      ∃ d, IsDigit radix c d ∧ acc * radix + d < bound ∧ n = acc * radix + d := by
  simp only [← digit?_eq_some_iff hradix, readDigits]
  cases digit? radix c with
  | none => simp
  | some d =>
    by_cases hbound : acc * radix + d < bound
    · simp [hbound, eq_comm]
    · simp [hbound]

/-- Digits are read as the number they spell, as long as it stays below the bound. -/
theorem readDigits_eq_ok_iff (hradix : radix ≤ 16) (hbound : 0 < bound) :
    readDigits radix bound 0 text = .ok n ↔ Spells radix text n ∧ n < bound := by
  induction text using List.reverseRecOn generalizing n with
  | nil =>
    rw [spells_nil_iff, readDigits, Except.ok.injEq]
    constructor
    · rintro rfl
      exact ⟨rfl, hbound⟩
    · rintro ⟨rfl, -⟩
      rfl
  | append_singleton text c ih =>
    rw [readDigits_append, spells_concat_iff]
    constructor
    · intro h
      cases hread : readDigits radix bound 0 text with
      | error fault =>
        rw [hread] at h
        cases h
      | ok m =>
        rw [hread] at h
        obtain ⟨d, hd, hlt, rfl⟩ := (readDigits_single_iff hradix).1 h
        exact ⟨⟨m, d, (ih.1 hread).1, hd, rfl⟩, hlt⟩
    · rintro ⟨⟨m, d, hm, hd, rfl⟩, hlt⟩
      -- What comes before the last digit is no larger than the whole.
      have hpos : 0 < radix := Nat.lt_of_le_of_lt (Nat.zero_le d) hd.1
      have hle : m ≤ m * radix := Nat.le_mul_of_pos_right m hpos
      rw [ih.2 ⟨hm, by omega⟩]
      exact (readDigits_single_iff hradix).2 ⟨d, hd, hlt, rfl⟩

theorem Spells.exists_digit (h : Spells radix text n) (hc : c ∈ text) : ∃ d, IsDigit radix c d := by
  induction text using List.reverseRecOn generalizing n with
  | nil => cases hc
  | append_singleton text last ih =>
    obtain ⟨m, d, hm, hd, -⟩ := spells_concat_iff.1 h
    rcases List.mem_append.1 hc with hc | hc
    · exact ih hm hc
    · rw [List.mem_singleton.1 hc]
      exact ⟨d, hd⟩

theorem IsDigit.toNat_lt (hradix : radix ≤ 16) (h : IsDigit radix c d) : c.toNat < 128 :=
  toNat_lt_of_digit? ((digit?_eq_some_iff hradix).2 h)

theorem not_isDigit_plus (hradix : radix ≤ 16) : ¬ IsDigit radix '+' d := by
  rw [← digit?_eq_some_iff hradix, digit?_plus]
  exact fun h => nomatch h

theorem isNumeral_plus_iff (hradix : radix ≤ 16) :
    IsNumeral radix ('+' :: text) n ↔ text ≠ [] ∧ Spells radix text n := by
  constructor
  · rintro ⟨digits, hne, heq | heq, hspells⟩
    · rw [← heq] at hspells
      obtain ⟨d, hd⟩ := hspells.exists_digit List.mem_cons_self
      exact absurd hd (not_isDigit_plus hradix)
    · rw [(List.cons.inj heq).2]
      exact ⟨hne, hspells⟩
  · rintro ⟨hne, hspells⟩
    exact ⟨text, hne, .inr rfl, hspells⟩

theorem isNumeral_iff_of_no_plus (h : ∀ rest, text ≠ '+' :: rest) :
    IsNumeral radix text n ↔ text ≠ [] ∧ Spells radix text n := by
  constructor
  · rintro ⟨digits, hne, rfl | heq, hspells⟩
    · exact ⟨hne, hspells⟩
    · exact absurd heq (h digits)
  · rintro ⟨hne, hspells⟩
    exact ⟨text, hne, .inl rfl, hspells⟩

theorem IsNumeral.toNat_lt (hradix : radix ≤ 16) (h : IsNumeral radix text n) (hc : c ∈ text) :
    c.toNat < 128 := by
  obtain ⟨digits, -, htext, hspells⟩ := h
  have hdigits : ∀ c ∈ digits, c.toNat < 128 := by
    intro c hc
    obtain ⟨d, hd⟩ := hspells.exists_digit hc
    exact hd.toNat_lt hradix
  rcases htext with rfl | rfl
  · exact hdigits c hc
  · rcases List.mem_cons.1 hc with rfl | hc
    · decide
    · exact hdigits c hc

/-- Reading accepts the numerals whose number is below the bound, and nothing else. -/
theorem read_eq_ok_iff (hradix : radix ≤ 16) (hbound : 0 < bound) :
    read radix bound text = .ok n ↔ IsNumeral radix text n ∧ n < bound := by
  unfold read
  split
  · simp [IsNumeral]
  · simp [isNumeral_plus_iff hradix]
  · next rest hrest =>
    have hne : rest ≠ [] := fun hnil => hrest (by rw [hnil])
    rw [isNumeral_plus_iff hradix, readDigits_eq_ok_iff hradix hbound, and_iff_right hne]
  · next hne _ hplus =>
    rw [isNumeral_iff_of_no_plus hplus, readDigits_eq_ok_iff hradix hbound, and_iff_right hne]

end Disassembly.Numeral
