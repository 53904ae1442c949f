import Disassembly.Text.Rendered
/-!
# Words and blanks

A word ends where a blank follows, and a line that starts with one is cut there. Where the length of
the first part is known it is cut behind that part, whatever is in it.
-/
namespace Disassembly

namespace Utf8

theorem splitAt?_byteSize (a b : List Char) : splitAt? (byteSize a) (a ++ b) = some (a, b) := by
  induction a with
  | nil =>
    rw [splitAt?.eq_def]
    rfl
  | cons c a ih =>
    have hpos := c.utf8Size_pos
    rw [List.cons_append, byteSize, splitAt?, if_neg (by omega), if_pos (by omega),
      Nat.add_sub_cancel_left, ih]
    rfl

end Utf8

namespace Text

structure IsWord (text : List Char) : Prop where
  nonempty : text ≠ []
  unbroken : ∀ c ∈ text, isBlank c = false

theorem isWord_iff {text : List Char} :
    IsWord text ↔ text.isEmpty = false ∧ text.all (!isBlank ·) = true := by
  rw [List.isEmpty_eq_false_iff, List.all_eq_true]
  constructor
  · intro h
    exact ⟨h.nonempty, fun c hc => by rw [h.unbroken c hc]; rfl⟩
  · rintro ⟨hnonempty, hall⟩
    exact ⟨hnonempty, fun c hc => by simpa using hall c hc⟩

instance (text : List Char) : Decidable (IsWord text) := decidable_of_iff _ isWord_iff.symm

def EndsWord (text : List Char) : Prop := ∀ c, text.head? = some c → isBlank c = true

variable {word rest : List Char}

theorem IsWord.takeWhile (h : IsWord word) (hrest : EndsWord rest) :
    (word ++ rest).takeWhile (!isBlank ·) = word := by
  rw [List.takeWhile_append_of_pos (List.all_eq_true.1 (isWord_iff.1 h).2)]
  cases rest with
  | nil => simp
  | cons c rest =>
    have hblank : isBlank c = true := hrest c rfl
    rw [List.takeWhile_cons_of_neg (by simp [hblank]), List.append_nil]

theorem IsWord.dropWhile (h : IsWord word) (hrest : EndsWord rest) :
    (word ++ rest).dropWhile (!isBlank ·) = rest := by
  have hboth := List.takeWhile_append_dropWhile (p := (!isBlank ·)) (l := word ++ rest)
  rw [h.takeWhile hrest] at hboth
  exact List.append_cancel_left hboth

theorem IsWord.dropWhile_isBlank (h : IsWord word) (rest : List Char) :
    (word ++ rest).dropWhile isBlank = word ++ rest := by
  cases word with
  | nil => exact absurd rfl h.nonempty
  | cons c word =>
    have hc : isBlank c = false := h.unbroken c List.mem_cons_self
    rw [List.cons_append, List.dropWhile_cons_of_neg (by simp [hc])]

theorem endsWord_spaces (n : Nat) (text : List Char) :
    EndsWord (List.replicate (n + 1) ' ' ++ text) := by
  intro c hc
  cases hc
  rfl

theorem IsWord.takeWhile_spaces (h : IsWord word) (n : Nat) (rest : List Char) :
    (List.replicate n ' ' ++ (word ++ rest)).takeWhile (· == ' ') = List.replicate n ' ' := by
  have hspaces : ∀ c ∈ List.replicate n ' ', (c == ' ') = true := by simp
  rw [List.takeWhile_append_of_pos hspaces]
  cases word with
  | nil => exact absurd rfl h.nonempty
  | cons c word =>
    have hc : isBlank c = false := h.unbroken c List.mem_cons_self
    have hspace : ¬ (c == ' ') = true := by
      intro heq
      rw [isBlank, heq] at hc
      cases hc
    rw [List.cons_append, List.takeWhile_cons_of_neg (p := (· == ' ')) hspace, List.append_nil]

theorem IsWord.dropWhile_spaces (h : IsWord word) (n : Nat) (rest : List Char) :
    (List.replicate n ' ' ++ (word ++ rest)).dropWhile (· == ' ') = word ++ rest := by
  have hboth := List.takeWhile_append_dropWhile (p := (· == ' '))
    (l := List.replicate n ' ' ++ (word ++ rest))
  rw [h.takeWhile_spaces n rest] at hboth
  exact List.append_cancel_left hboth

theorem splitRendered_append (text rest : List Char) :
    splitRendered (text ++ rest) (some (Utf8.byteSize text)) = (text, rest.dropWhile isBlank) := by
  simp only [splitRendered, cutMnemonic, Option.bind_some, Utf8.splitAt?_byteSize]

theorem IsWord.splitRendered {word rest : List Char} (hword : IsWord word) (hrest : EndsWord rest) :
    splitRendered (word ++ rest) none = (word, rest.dropWhile isBlank) := by
  simp only [Text.splitRendered, cutMnemonic, Option.bind_none, hword.takeWhile hrest,
    hword.dropWhile hrest]

end Text

end Disassembly
