import Disassembly.Proofs.Text.Boundaries
/-!
# Lines taken apart

A line is its mnemonic, some blanks and its operands, and nothing else. The mnemonic ends where the
hint says if that is a boundary, and in front of the first blank if it is not. Either way the offset
at which the line is cut is one where it can be cut.
-/
namespace Disassembly.Text

structure Splits (line : List Char) (hint : Option Nat) (mnemonic operands : List Char) :
    Prop where
  whole : ∃ blanks, line = mnemonic ++ blanks ++ operands ∧ ∀ c ∈ blanks, c = ' ' ∨ c = '\t'
  operands : ∀ c ∈ operands.head?, c ≠ ' ' ∧ c ≠ '\t'
  hinted : ∀ n, hint = some n → Utf8.isBoundary (Utf8.encode line) n = true →
    Utf8.encode mnemonic = (Utf8.encode line).take n
  unhinted : (∀ n, hint = some n → Utf8.isBoundary (Utf8.encode line) n = false) →
    LongestPrefix (fun front => ∀ c ∈ front, c ≠ ' ' ∧ c ≠ '\t') line mnemonic

def firstBlank? : List Char → Option Nat
  | [] => none
  | c :: rest => if isBlank c then some 0 else (firstBlank? rest).map (c.utf8Size + ·)

/-- The offset at which a line is cut: the hint if it is a boundary, else the first blank, else the
end. -/
def mnemonicEnd (line : List Char) (hint : Option Nat) : Nat :=
  ((hint.filter fun n => Utf8.isBoundary (Utf8.encode line) n).or (firstBlank? line)).getD
    (Utf8.encode line).length

variable {line mnemonic operands mnemonic' operands' blanks : List Char} {hint : Option Nat}
  {c : Char}

theorem isBlank_iff : isBlank c = true ↔ c = ' ' ∨ c = '\t' := by
  simp [isBlank]

theorem not_isBlank_iff : isBlank c = false ↔ c ≠ ' ' ∧ c ≠ '\t' := by
  simp [isBlank]

theorem longestPrefix_unbroken (line : List Char) :
    LongestPrefix (fun front => ∀ c ∈ front, c ≠ ' ' ∧ c ≠ '\t') line
      (line.takeWhile (!isBlank ·)) := by
  have hlongest := longestPrefix_takeWhile (!isBlank ·) line
  simp only [Bool.not_eq_true', not_isBlank_iff] at hlongest
  exact hlongest

theorem dropWhile_blanks (hblanks : ∀ c ∈ blanks, c = ' ' ∨ c = '\t')
    (hoperands : ∀ c ∈ operands.head?, c ≠ ' ' ∧ c ≠ '\t') :
    (blanks ++ operands).dropWhile isBlank = operands := by
  rw [List.dropWhile_append_of_pos fun c hc => isBlank_iff.2 (hblanks c hc)]
  cases operands with
  | nil => rfl
  | cons c rest =>
    have hc : isBlank c = false := not_isBlank_iff.2 (hoperands c rfl)
    rw [List.dropWhile_cons_of_neg (by simp [hc])]

/-! ### The place of the cut -/

theorem cutMnemonic_of_boundary {n : Nat} (h : Utf8.isBoundary (Utf8.encode line) n = true) :
    Utf8.splitAt? n line = some (cutMnemonic line (some n)) := by
  obtain ⟨front, back, hcut⟩ := Utf8.exists_splitAt? h
  rw [cutMnemonic, Option.bind_some, hcut]

theorem cutMnemonic_of_no_boundary
    (h : ∀ n, hint = some n → Utf8.isBoundary (Utf8.encode line) n = false) :
    cutMnemonic line hint = (line.takeWhile (!isBlank ·), line.dropWhile (!isBlank ·)) := by
  cases hint with
  | none => rfl
  | some n => rw [cutMnemonic, Option.bind_some, Utf8.splitAt?_eq_none (h n rfl)]

theorem firstBlank?_getD (line : List Char) :
    (firstBlank? line).getD (Utf8.byteSize line) =
      Utf8.byteSize (line.takeWhile (!isBlank ·)) := by
  induction line with
  | nil => rfl
  | cons c rest ih =>
    by_cases hc : isBlank c = true
    · rw [firstBlank?, if_pos hc, List.takeWhile_cons_of_neg (by simp [hc])]
      rfl
    · rw [firstBlank?, if_neg hc, List.takeWhile_cons_of_pos (by simp [hc]), Utf8.byteSize,
        Utf8.byteSize, ← ih]
      cases firstBlank? rest <;> rfl

/-- Wherever the hint points, the cut is made at a boundary. -/
theorem splitAt?_mnemonicEnd (line : List Char) (hint : Option Nat) :
    Utf8.splitAt? (mnemonicEnd line hint) line = some (cutMnemonic line hint) := by
  have hunhinted : Utf8.splitAt? ((firstBlank? line).getD (Utf8.encode line).length) line =
      some (line.takeWhile (!isBlank ·), line.dropWhile (!isBlank ·)) := by
    rw [Utf8.length_encode, firstBlank?_getD, Utf8.splitAt?_eq_some_iff]
    exact ⟨List.takeWhile_append_dropWhile.symm, rfl⟩
  cases hint with
  | none => exact hunhinted
  | some n =>
    by_cases hboundary : Utf8.isBoundary (Utf8.encode line) n = true
    · have hend : mnemonicEnd line (some n) = n := by
        simp [mnemonicEnd, Option.filter_some, hboundary]
      rw [hend, cutMnemonic_of_boundary hboundary]
    · have hend : mnemonicEnd line (some n) =
          (firstBlank? line).getD (Utf8.encode line).length := by
        simp [mnemonicEnd, Option.filter_some, hboundary]
      rw [hend, hunhinted, cutMnemonic_of_no_boundary]
      intro m hm
      rw [← Option.some.inj hm]
      exact Bool.eq_false_iff.2 hboundary

/-! ### The two parts -/

theorem splits_splitRendered (line : List Char) (hint : Option Nat) :
    Splits line hint (splitRendered line hint).1 (splitRendered line hint).2 := by
  have hcut := cutMnemonic_append line hint
  refine ⟨⟨(cutMnemonic line hint).2.takeWhile isBlank, ?_, ?_⟩, ?_, ?_, ?_⟩
  · rw [splitRendered, List.append_assoc, List.takeWhile_append_dropWhile, hcut]
  · intro c hc
    exact isBlank_iff.1 (List.mem_takeWhile_imp hc)
  · intro c hc
    have hhead := List.head?_dropWhile_not isBlank (cutMnemonic line hint).2
    rw [splitRendered, Option.mem_def] at hc
    rw [hc] at hhead
    exact not_isBlank_iff.1 hhead
  · rintro n rfl hboundary
    have hsize : Utf8.byteSize (cutMnemonic line (some n)).1 = n :=
      (Utf8.splitAt?_eq_some_iff.1 (cutMnemonic_of_boundary hboundary)).2
    rw [splitRendered, Utf8.encode_front ⟨_, hcut⟩, hsize]
  · intro hnone
    rw [splitRendered, cutMnemonic_of_no_boundary hnone]
    exact longestPrefix_unbroken line

theorem Splits.unique (h : Splits line hint mnemonic operands)
    (k : Splits line hint mnemonic' operands') : mnemonic = mnemonic' ∧ operands = operands' := by
  obtain ⟨blanks, hline, hblanks⟩ := h.whole
  obtain ⟨blanks', hline', hblanks'⟩ := k.whole
  rw [List.append_assoc] at hline hline'
  have hmnemonic : mnemonic = mnemonic' := by
    by_cases hhint : ∃ n, hint = some n ∧ Utf8.isBoundary (Utf8.encode line) n = true
    · obtain ⟨n, hn, hboundary⟩ := hhint
      have hbytes : Utf8.encode mnemonic = Utf8.encode mnemonic' :=
        (h.hinted n hn hboundary).trans (k.hinted n hn hboundary).symm
      have hsize := congrArg List.length hbytes
      rw [Utf8.length_encode, Utf8.length_encode] at hsize
      exact Utf8.eq_of_byteSize_eq ⟨_, hline.symm⟩ ⟨_, hline'.symm⟩ hsize
    · have hnone : ∀ n, hint = some n → Utf8.isBoundary (Utf8.encode line) n = false := by
        intro n hn
        rw [Bool.eq_false_iff]
        exact fun hboundary => hhint ⟨n, hn, hboundary⟩
      exact (h.unhinted hnone).unique (k.unhinted hnone)
  refine ⟨hmnemonic, ?_⟩
  subst hmnemonic
  have hrest : blanks ++ operands = blanks' ++ operands' :=
    List.append_cancel_left (hline.symm.trans hline')
  rw [← dropWhile_blanks hblanks h.operands, hrest, dropWhile_blanks hblanks' k.operands]

/-- Nothing of a line is lost but the blanks between its two parts, whatever the hint: they are the
only two that fit the description. No hint leads to a cut that cannot be made. -/
theorem splitRendered_exact (line : List Char) (hint : Option Nat) :
    (∀ mnemonic operands, splitRendered line hint = (mnemonic, operands) ↔
      Splits line hint mnemonic operands) ∧
    ∃ rest, Utf8.splitAt? (mnemonicEnd line hint) line =
      some ((splitRendered line hint).1, rest) := by
  have hsplits := splits_splitRendered line hint
  refine ⟨fun mnemonic operands => ⟨?_, ?_⟩, ?_⟩
  · intro heq
    rwa [heq] at hsplits
  · intro h
    obtain ⟨hmnemonic, hoperands⟩ := hsplits.unique h
    exact Prod.ext hmnemonic hoperands
  · exact ⟨(cutMnemonic line hint).2, splitAt?_mnemonicEnd line hint⟩

-- A hint inside of a character is none.
example : splitRendered ['é', 'a', '\t', ' ', 'b'] (some 1) = (['é', 'a'], ['b']) := by decide

example : splitRendered ['é', 'a', '\t', ' ', 'b'] (some 2) = (['é'], ['a', '\t', ' ', 'b']) := by
  decide

end Disassembly.Text
