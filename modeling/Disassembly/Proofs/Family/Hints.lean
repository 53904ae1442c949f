import Disassembly.Proofs.Family.Prefixes
import Disassembly.Proofs.Text.Lines
/-!
# Where x86 finds the end of a mnemonic

The length that x86 gives for a mnemonic is that of a known prefix, one or more spaces and a word,
and it is given just where a line starts so. It is a boundary of the line, so that the line is cut
behind the word. Every other line is cut in front of its first blank.
-/
namespace Disassembly.X86

open Text (IsWord EndsWord isBlank splitRendered LongestPrefix)

structure Prefixed (line head rest : List Char) : Prop where
  line : line = head ++ rest
  head : ∃ first ∈ prefixes, ∃ spaces word,
    head = first.toList ++ (List.replicate (spaces + 1) ' ' ++ word) ∧
      word ≠ [] ∧ ∀ c ∈ word, c ≠ ' ' ∧ c ≠ '\t'
  rest : rest = [] ∨ ∃ c behind, rest = c :: behind ∧ (c = ' ' ∨ c = '\t')

variable {line head rest word : List Char} {n : Nat}

theorem isWord_of_unbroken (hnonempty : word ≠ []) (h : ∀ c ∈ word, c ≠ ' ' ∧ c ≠ '\t') :
    IsWord word := ⟨hnonempty, fun c hc => Text.not_isBlank_iff.2 (h c hc)⟩

theorem endsWord_iff :
    EndsWord rest ↔ rest = [] ∨ ∃ c behind, rest = c :: behind ∧ (c = ' ' ∨ c = '\t') := by
  cases rest with
  | nil => exact ⟨fun _ => .inl rfl, fun _ c hc => by cases hc⟩
  | cons c behind =>
    constructor
    · intro h
      exact .inr ⟨c, behind, rfl, Text.isBlank_iff.1 (h c rfl)⟩
    · rintro (h | ⟨d, others, h, hd⟩) e he
      · cases h
      · cases h
        cases he
        exact Text.isBlank_iff.2 hd

theorem Prefixed.prefixedLength? (h : Prefixed line head rest) :
    prefixedLength? line = some (Utf8.byteSize head) := by
  obtain ⟨first, hfirst, spaces, word, hhead, hnonempty, hunbroken⟩ := h.head
  have hword := isWord_of_unbroken hnonempty hunbroken
  rw [h.line, hhead, List.append_assoc, List.append_assoc]
  exact prefixedLength?_of_prefix hfirst hword (endsWord_iff.2 h.rest) spaces

theorem endsWord_dropWhile (text : List Char) : EndsWord (text.dropWhile (!isBlank ·)) := by
  intro c hc
  have hhead := List.head?_dropWhile_not (!isBlank ·) text
  rw [hc] at hhead
  simpa using hhead

theorem takeWhile_of_endsWord (h : EndsWord rest) : rest.takeWhile (!isBlank ·) = [] := by
  cases rest with
  | nil => rfl
  | cons c behind =>
    have hc : isBlank c = true := h c rfl
    rw [List.takeWhile_cons_of_neg (by simp [hc])]

theorem exists_prefixed (h : prefixedLength? line = some n) :
    ∃ head rest, Prefixed line head rest ∧ n = Utf8.byteSize head := by
  rw [X86.prefixedLength?] at h
  generalize hfirst : line.takeWhile (!isBlank ·) = first at h
  generalize hbehind : line.dropWhile (!isBlank ·) = behind at h
  generalize hspaces : behind.takeWhile (· == ' ') = spaces at h
  generalize hafter : behind.dropWhile (· == ' ') = after at h
  generalize hword : after.takeWhile (!isBlank ·) = word at h
  split at h
  · cases h
  · next hguard =>
    simp only [Bool.or_eq_true, not_or, Bool.not_eq_true, Bool.not_eq_false',
      List.isEmpty_eq_false_iff, List.contains_iff_mem] at hguard
    obtain ⟨⟨-, hnonempty⟩, hknown⟩ := hguard
    have hline : line = first ++ behind := by
      rw [← hfirst, ← hbehind, List.takeWhile_append_dropWhile]
    have hsplit : behind = spaces ++ after := by
      rw [← hspaces, ← hafter, List.takeWhile_append_dropWhile]
    have hends : EndsWord behind := hbehind ▸ endsWord_dropWhile line
    -- A tab directly behind the prefix leaves no word.
    have hsome : spaces ≠ [] := by
      rintro rfl
      rw [← hword, ← List.nil_append after, ← hsplit] at hnonempty
      exact hnonempty (takeWhile_of_endsWord hends)
    obtain ⟨count, hcount⟩ := Nat.exists_eq_succ_of_ne_zero (mt List.length_eq_zero_iff.1 hsome)
    have hall : spaces = List.replicate (count + 1) ' ' := by
      refine List.eq_replicate_iff.2 ⟨hcount, ?_⟩
      intro c hc
      rw [← hspaces] at hc
      simpa using List.mem_takeWhile_imp hc
    refine ⟨first ++ (spaces ++ word), after.dropWhile (!isBlank ·), ⟨?_, ?_, ?_⟩, ?_⟩
    · rw [hline, hsplit, ← hword, List.append_assoc, List.append_assoc,
        List.takeWhile_append_dropWhile]
    · refine ⟨String.ofList first, hknown, count, word, ?_, hnonempty, ?_⟩
      · rw [String.toList_ofList, ← hall]
      · intro c hc
        rw [← hword] at hc
        simpa [Text.not_isBlank_iff] using List.mem_takeWhile_imp hc
    · exact endsWord_iff.1 (endsWord_dropWhile after)
    · rw [← Option.some.inj h, Utf8.byteSize_append, Utf8.byteSize_append, Nat.add_assoc]

theorem prefixedLength?_eq_some_iff :
    prefixedLength? line = some n ↔
      ∃ head rest, Prefixed line head rest ∧ n = (Utf8.encode head).length := by
  simp only [Utf8.length_encode]
  constructor
  · exact exists_prefixed
  · rintro ⟨head, rest, h, rfl⟩
    exact h.prefixedLength?

theorem Prefixed.textsOf (h : Prefixed line head rest) :
    textsOf line = (head, rest.dropWhile isBlank) := by
  rw [X86.textsOf, h.prefixedLength?, h.line, Text.splitRendered_append]

/-- The length is given for a prefix, spaces and a word, and for nothing else. It never leads
astray: it is a boundary, and the mnemonic ends there. Where none is given the mnemonic is what
stands in front of the first blank. -/
theorem prefixedLength?_exact (line : List Char) :
    (∀ n, prefixedLength? line = some n ↔
      ∃ head rest, Prefixed line head rest ∧ n = (Utf8.encode head).length) ∧
    (∀ n, prefixedLength? line = some n →
      n ≤ (Utf8.encode line).length ∧ Utf8.isBoundary (Utf8.encode line) n = true) ∧
    (∀ head rest, Prefixed line head rest →
      ∃ operands, splitRendered line (prefixedLength? line) = (head, operands)) ∧
    ((¬ ∃ head rest, Prefixed line head rest) → prefixedLength? line = none ∧
      LongestPrefix (fun front => ∀ c ∈ front, c ≠ ' ' ∧ c ≠ '\t') line
        (splitRendered line (prefixedLength? line)).1) := by
  refine ⟨fun n => prefixedLength?_eq_some_iff, ?_, ?_, ?_⟩
  · intro n hn
    obtain ⟨head, rest, h, rfl⟩ := exists_prefixed hn
    have hfront : head <+: line := ⟨rest, h.line.symm⟩
    rw [Utf8.length_encode]
    exact ⟨Utf8.byteSize_front_le hfront, Utf8.isBoundary_byteSize hfront⟩
  · intro head rest h
    exact ⟨_, h.textsOf⟩
  · intro hno
    have hnone : prefixedLength? line = none := by
      rw [Option.eq_none_iff_forall_ne_some]
      intro n hn
      obtain ⟨head, rest, h, -⟩ := exists_prefixed hn
      exact hno ⟨head, rest, h⟩
    refine ⟨hnone, ?_⟩
    rw [hnone]
    exact (Text.splits_splitRendered line none).unhinted fun n hn => by cases hn

end Disassembly.X86
