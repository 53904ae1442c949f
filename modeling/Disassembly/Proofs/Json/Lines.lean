import Disassembly.Proofs.Json.Scalars
/-!
# Written values as whole texts

A whole written text is read back. In the compact layout it stays on one line: the layout itself
breaks no lines, and the breaks in strings are escaped.
-/
namespace Disassembly.Json

variable {α : Type}

theorem readDocument_written {read : List Char → Reading α} {written : List Char} {value : α}
    (h : Reads read written value) : readDocument read (String.ofList written) = .ok value := by
  have htext := h.starts.skipBlanks_written []
  rw [List.append_nil] at htext
  have hfound := h.found (htext.trans (List.append_nil _).symm) ends_nil
  rw [readDocument, String.toList_ofList, hfound]
  rfl

theorem newline_not_mem_hexByte (byte : UInt8) : '\n' ∉ Numeral.hexByte byte := by
  have hlt := byte.toNat_lt
  have hdigit : ∀ d < 16, '\n' ≠ Nat.digitChar d := by decide
  simp only [Numeral.hexByte, List.mem_cons, List.not_mem_nil, or_false, not_or]
  exact ⟨hdigit _ (by omega), hdigit _ (by omega)⟩

theorem newline_not_mem_escapeChar (c : Char) : '\n' ∉ escapeChar c := by
  unfold escapeChar
  -- the escapes of one letter
  iterate 7 (split; · decide)
  split
  · rw [List.mem_append, not_or]
    exact ⟨by decide, newline_not_mem_hexByte _⟩
  · next hnewline _ _ _ _ _ =>
    rw [List.mem_singleton]
    exact fun h => hnewline h.symm

theorem newline_not_mem_quoted (text : String) : '\n' ∉ quoted text := by
  simp only [quoted, List.cons_append, List.mem_cons, List.mem_append, List.mem_flatMap,
    List.not_mem_nil, or_false, not_or, not_exists, not_and]
  exact ⟨by decide, fun c _ => newline_not_mem_escapeChar c, by decide⟩

theorem newline_not_mem_toDigits (n : Nat) : '\n' ∉ Nat.toDigits 10 n := by
  intro h
  cases Nat.isDigit_of_mem_toDigits (by decide) (by decide) h

theorem newline_not_mem_bracketed {opening closing : Char} (hopening : '\n' ≠ opening)
    (hclosing : '\n' ≠ closing) {items : List (List Char)} (hitems : ∀ item ∈ items, '\n' ∉ item) :
    '\n' ∉ bracketed opening closing .compact items := by
  cases items with
  | nil => simp [bracketed, hopening, hclosing]
  | cons item items =>
    obtain ⟨hitem, hitems⟩ := List.forall_mem_cons.mp hitems
    simpa [bracketed, Layout.inner, Layout.line, hopening, hclosing, hitem] using hitems

mutual

/-- Whatever its strings, a value is written without a line break. -/
theorem newline_not_mem_write : ∀ value : Value, '\n' ∉ write .compact value
  | .null => by decide
  | .bool b => by cases b <;> decide
  | .number n => by
    rw [write]
    exact newline_not_mem_toDigits n
  | .string text => by
    rw [write]
    exact newline_not_mem_quoted text
  | .array items => by
    rw [write]
    exact newline_not_mem_bracketed (by decide) (by decide) (newline_not_mem_writeItems items)
  | .object members => by
    rw [write]
    exact newline_not_mem_bracketed (by decide) (by decide) (newline_not_mem_writeMembers members)

theorem newline_not_mem_writeItems :
    ∀ items : List Value, ∀ written ∈ writeItems .compact items, '\n' ∉ written
  | [] => List.forall_mem_nil _
  | item :: items => by
    rw [writeItems]
    exact List.forall_mem_cons.mpr ⟨newline_not_mem_write item, newline_not_mem_writeItems items⟩

theorem newline_not_mem_writeMembers :
    ∀ members : List (String × Value), ∀ written ∈ writeMembers .compact members, '\n' ∉ written
  | [] => List.forall_mem_nil _
  | (name, value) :: members => by
    rw [writeMembers]
    refine List.forall_mem_cons.mpr ⟨?_, newline_not_mem_writeMembers members⟩
    simp only [List.mem_append, not_or]
    exact ⟨⟨newline_not_mem_quoted name, by decide⟩, newline_not_mem_write value⟩

end

end Disassembly.Json
