import Disassembly.Proofs.Family.Modes
import Disassembly.Proofs.Text.Numerals
import Mathlib.Data.List.TakeWhile
/-!
# Modes, written and read back

The text of a mode names its flags one by one, and what is left of it by a numeral. Reading takes
the words apart at the bars and joins what they stand for, which gives the mode again: every flag
with a name is a single bit, and no bit has two of them.
-/
namespace Disassembly.Mode

open Text (isSpace trim trimEnd)

variable {mode : Mode} {word text : List Char} {words : List (List Char)} {i : Fin 32}

structure IsFlag (word : List Char) : Prop where
  ne_nil : word ≠ []
  not_space : ∀ c ∈ word, isSpace c = false
  not_bar : '|' ∉ word

instance (word : List Char) : Decidable (IsFlag word) :=
  have hspace : word.all (!isSpace ·) = true ↔ ∀ c ∈ word, isSpace c = false := by simp
  decidable_of_iff (word ≠ [] ∧ word.all (!isSpace ·) = true ∧ '|' ∉ word)
    ⟨fun ⟨h, k, l⟩ => ⟨h, hspace.1 k, l⟩, fun ⟨h, k, l⟩ => ⟨h, hspace.2 k, l⟩⟩

/-! ### Taking the words apart -/

theorem splitBars_ne_nil (text : List Char) : splitBars text ≠ [] := by
  cases text with
  | nil => exact List.cons_ne_nil _ _
  | cons c text =>
    rw [splitBars]
    split
    · exact List.cons_ne_nil _ _
    · split <;> exact List.cons_ne_nil _ _

theorem splitBars_of_not_mem (h : '|' ∉ text) : splitBars text = [text] := by
  induction text with
  | nil => rfl
  | cons c text ih =>
    obtain ⟨hc, htext⟩ := List.ne_and_not_mem_of_not_mem_cons h
    rw [splitBars, ih htext]
    exact if_neg (Ne.symm hc)

theorem splitBars_append (h : '|' ∉ text) (rest : List Char) :
    splitBars (text ++ '|' :: rest) = text :: splitBars rest := by
  induction text with
  | nil =>
    obtain ⟨piece, pieces, hrest⟩ := List.exists_cons_of_ne_nil (splitBars_ne_nil rest)
    rw [List.nil_append, splitBars, hrest]
    rfl
  | cons c text ih =>
    obtain ⟨hc, htext⟩ := List.ne_and_not_mem_of_not_mem_cons h
    rw [List.cons_append, splitBars, ih htext]
    exact if_neg (Ne.symm hc)

theorem IsFlag.dropWhile (h : IsFlag word) (rest : List Char) :
    (word ++ rest).dropWhile isSpace = word ++ rest := by
  obtain ⟨c, tail, rfl⟩ := List.exists_cons_of_ne_nil h.ne_nil
  have hc : ¬ isSpace c = true := by simp [h.not_space c List.mem_cons_self]
  exact List.dropWhile_cons_of_neg hc

theorem IsFlag.reverse (h : IsFlag word) : IsFlag word.reverse where
  ne_nil := by simpa using h.ne_nil
  not_space := by simpa using h.not_space
  not_bar := by simpa using h.not_bar

theorem IsFlag.trim_padded (h : IsFlag word) {before after : List Char}
    (hbefore : ∀ c ∈ before, isSpace c = true) (hafter : ∀ c ∈ after, isSpace c = true) :
    trim (before ++ word ++ after) = word := by
  have hreversed : ∀ c ∈ after.reverse, isSpace c = true := by simpa using hafter
  have hword := h.reverse.dropWhile []
  rw [List.append_nil] at hword
  rw [trim, trimEnd, List.append_assoc, List.dropWhile_append_of_pos hbefore, h.dropWhile,
    List.reverse_append, List.dropWhile_append_of_pos hreversed, hword, List.reverse_reverse]

theorem IsFlag.trim_append_ne_nil (h : IsFlag word) (rest : List Char) :
    trim (word ++ rest) ≠ [] := by
  intro hnil
  rw [trim, h.dropWhile, trimEnd, List.reverse_eq_nil_iff, List.dropWhile_eq_nil_iff] at hnil
  obtain ⟨c, tail, rfl⟩ := List.exists_cons_of_ne_nil h.ne_nil
  have hspace := hnil c (by simp)
  rw [h.not_space c List.mem_cons_self] at hspace
  cases hspace

theorem readWords_cons {flag : Mode} (h : readWord (trim text) = .ok flag) (mode : Mode)
    (rest : List (List Char)) :
    readWords mode (text :: rest) = readWords (mode.union flag) rest := by
  rw [readWords, h]

theorem readWords_splitBars {flags : List Mode}
    (h : List.Forall₂ (fun word flag => IsFlag word ∧ readWord word = .ok flag) words flags)
    (hne : words ≠ []) (mode : Mode) {lead : List Char} (hlead : ∀ c ∈ lead, c = ' ') :
    readWords mode (splitBars (lead ++ [' ', '|', ' '].intercalate words)) =
      .ok (flags.foldl union mode) := by
  have hspaces : ∀ c ∈ lead, isSpace c = true := fun c hc => hlead c hc ▸ rfl
  have hbar : '|' ∉ lead := fun hmem => absurd (hlead _ hmem) (by decide)
  induction h generalizing mode lead with
  | nil => exact absurd rfl hne
  | @cons word flag words flags hword hwords ih =>
    obtain ⟨hflag, hread⟩ := hword
    cases hwords with
    | nil =>
      have htrim := hflag.trim_padded hspaces (List.forall_mem_nil _)
      rw [List.append_nil] at htrim
      rw [List.intercalate_singleton,
        splitBars_of_not_mem (by simp [hbar, hflag.not_bar]),
        readWords_cons (by rw [htrim, hread])]
      rfl
    | @cons next _ rest _ hnext hrest =>
      have hblank : ∀ c ∈ [' '], c = ' ' := List.forall_mem_singleton.mpr rfl
      have hspace : ∀ c ∈ [' '], isSpace c = true := List.forall_mem_singleton.mpr rfl
      have htrim := hflag.trim_padded hspaces hspace
      have hjoined := ih (List.cons_ne_nil _ _) (mode.union flag) hblank hspace (by decide)
      -- The first bar stands behind the first word, and a blank leads on to the next one.
      have hcut : lead ++ [' ', '|', ' '].intercalate (word :: next :: rest) =
          (lead ++ word ++ [' ']) ++ '|' :: ([' '] ++ [' ', '|', ' '].intercalate (next :: rest)) := by
        simp [List.intercalate_cons_cons]
      rw [hcut, splitBars_append (by simp [hbar, hflag.not_bar]),
        readWords_cons (by rw [htrim, hread]), hjoined]
      rfl

/-! ### The words of a mode -/

theorem isFlag_names : ∀ flag ∈ flags, IsFlag flag.1.toList ∧
    readWord flag.1.toList = .ok flag.2 := by
  decide

theorem isFlag_hex (n : Nat) : IsFlag (Numeral.hex n).toList := by
  have hdigits : ∀ d < 16, isSpace d.digitChar = false ∧ d.digitChar ≠ '|' := by decide
  have hmem : ∀ c ∈ Numeral.hexDigits n, isSpace c = false ∧ c ≠ '|' := by
    intro c hc
    obtain ⟨d, hd, rfl⟩ := Numeral.exists_digit_of_mem_toDigits (by decide) hc
    exact hdigits d hd
  have htext : (Numeral.hex n).toList = '0' :: 'x' :: Numeral.hexDigits n := by
    simp [Numeral.hex]
  rw [htext]
  refine ⟨List.cons_ne_nil _ _, ?_, ?_⟩
  · intro c hc
    rcases List.mem_cons.1 hc with rfl | hc
    · decide
    · rcases List.mem_cons.1 hc with rfl | hc
      · decide
      · exact (hmem c hc).1
  · intro hbar
    simp only [List.mem_cons, Char.reduceEq, false_or] at hbar
    exact (hmem _ hbar).2 rfl

theorem readWord_hex (bits : UInt32) : readWord (Numeral.hex bits.toNat).toList = .ok ⟨bits⟩ := by
  have htext : (Numeral.hex bits.toNat).toList = '0' :: 'x' :: Nat.toDigits 16 bits.toNat := by
    simp [Numeral.hex, Numeral.hexDigits]
  have hread : Numeral.read 16 UInt32.size (Nat.toDigits 16 bits.toNat) = .ok bits.toNat :=
    Numeral.read_toDigits (by decide) (by decide) bits.toNat_lt
  rw [htext, readWord, hread]
  simp

def parts (mode : Mode) : List Mode :=
  let rest := mode.difference named
  (flags.filter fun flag => mode.contains flag.2).map Prod.snd ++
    if rest = empty then [] else [rest]

theorem forall₂_words (mode : Mode) :
    List.Forall₂ (fun word flag => IsFlag word ∧ readWord word = .ok flag)
      (mode.words.map String.toList) mode.parts := by
  have hnames : List.Forall₂ (fun word flag => IsFlag word ∧ readWord word = .ok flag)
      (((flags.filter fun flag => mode.contains flag.2).map Prod.fst).map String.toList)
      ((flags.filter fun flag => mode.contains flag.2).map Prod.snd) := by
    rw [List.map_map, List.forall₂_map_left_iff, List.forall₂_map_right_iff, List.forall₂_same]
    intro flag hflag
    exact isFlag_names flag (List.mem_of_mem_filter hflag)
  rw [words, parts]
  by_cases hrest : mode.difference named = empty
  · simpa only [if_pos hrest, List.append_nil] using hnames
  · simp only [if_neg hrest, List.map_append]
    exact List.rel_append hnames (.cons ⟨isFlag_hex _, readWord_hex _⟩ .nil)

theorem mem_positions_foldl (start : Mode) (parts : List Mode) :
    i ∈ (parts.foldl union start).positions ↔
      i ∈ start.positions ∨ ∃ part ∈ parts, i ∈ part.positions := by
  induction parts generalizing start with
  | nil => simp
  | cons part parts ih =>
    rw [List.foldl_cons, ih, positions_union, Finset.mem_union, List.exists_mem_cons_iff, or_assoc]

theorem exists_flag : ∀ i ∈ named.positions, ∃ flag ∈ flags, flag.2.positions = {i} := by
  rw [positions_named]
  decide

theorem mem_parts {part : Mode} : part ∈ mode.parts ↔
    (∃ flag ∈ flags, mode.contains flag.2 = true ∧ flag.2 = part) ∨
      (part = mode.difference named ∧ part ≠ empty) := by
  have hrest : (part ∈ if mode.difference named = empty then [] else [mode.difference named]) ↔
      part = mode.difference named ∧ part ≠ empty := by
    by_cases hrest : mode.difference named = empty
    · rw [if_pos hrest, hrest]
      simp
    · rw [if_neg hrest, List.mem_singleton]
      constructor
      · rintro rfl
        exact ⟨rfl, hrest⟩
      · exact And.left
  rw [parts, List.mem_append, hrest]
  simp only [List.mem_map, List.mem_filter, and_assoc]

theorem foldl_parts (mode : Mode) : mode.parts.foldl union empty = mode := by
  have hempty : empty.positions = ∅ := by decide
  rw [← positions_inj]
  ext i
  have hrest : i ∈ (mode.difference named).positions ↔
      i ∈ mode.positions ∧ i ∉ named.positions := by
    rw [positions_difference, Finset.mem_sdiff]
  rw [mem_positions_foldl, hempty]
  constructor
  · rintro (hnone | ⟨part, hpart, hi⟩)
    · exact absurd hnone (Finset.notMem_empty i)
    · rcases mem_parts.1 hpart with ⟨flag, -, hcontains, rfl⟩ | ⟨rfl, -⟩
      · exact contains_iff.1 hcontains hi
      · exact (hrest.1 hi).1
  · intro hi
    refine .inr ?_
    by_cases hnamed : i ∈ named.positions
    · obtain ⟨flag, hflag, hposition⟩ := exists_flag i hnamed
      have hcontains : mode.contains flag.2 = true := by
        rwa [contains_iff, hposition, Finset.singleton_subset_iff]
      refine ⟨flag.2, mem_parts.2 (.inl ⟨flag, hflag, hcontains, rfl⟩), ?_⟩
      rw [hposition]
      exact Finset.mem_singleton_self i
    · have hleft : i ∈ (mode.difference named).positions := hrest.2 ⟨hi, hnamed⟩
      refine ⟨_, mem_parts.2 (.inr ⟨rfl, ?_⟩), hleft⟩
      intro hnone
      rw [hnone, hempty] at hleft
      exact Finset.notMem_empty i hleft

/-- Whatever its bits, with names or without, a mode is read back from its text. -/
theorem read_text (mode : Mode) : read mode.text = .ok mode := by
  have htext : mode.text.toList = [' ', '|', ' '].intercalate (mode.words.map String.toList) := by
    rw [text, String.toList_intercalate]
    rfl
  have hforall := forall₂_words mode
  have hjoined := foldl_parts mode
  cases hwords : mode.words.map String.toList with
  | nil =>
    -- a mode without words is empty, and so is its text
    rw [hwords] at htext hforall
    rw [List.forall₂_nil_left_iff.1 hforall] at hjoined
    rw [read, htext, ← hjoined]
    rfl
  | cons word words =>
    rw [hwords] at htext hforall
    obtain ⟨_, _, ⟨hword, -⟩, -, -⟩ := List.forall₂_cons_left_iff.1 hforall
    have hlead : ∀ c ∈ [], c = ' ' := List.forall_mem_nil _
    have hread := readWords_splitBars hforall (List.cons_ne_nil _ _) empty hlead
    rw [hjoined, List.nil_append, ← htext] at hread
    obtain ⟨tail, htail⟩ : ∃ tail, mode.text.toList = word ++ tail := by
      cases words with
      | nil => exact ⟨[], by rw [htext, List.intercalate_singleton, List.append_nil]⟩
      | cons next words => exact ⟨_, by rw [htext, List.intercalate_cons_cons, List.append_assoc]⟩
    have hblank : ¬ (trim mode.text.toList).isEmpty = true := by
      rw [htail, List.isEmpty_iff]
      exact hword.trim_append_ne_nil tail
    rw [read, if_neg hblank, hread]

end Disassembly.Mode
