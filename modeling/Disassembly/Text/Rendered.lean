import Disassembly.Text.Blank
import Disassembly.Text.Utf8
/-!
Rendered lines: a mnemonic, blanks, and operands. A hint tells where the mnemonic ends, as a
number of bytes; without one, or with one that is no place to cut, it ends at the first blank.
-/
namespace Disassembly.Text

def cutMnemonic (text : List Char) (hint : Option Nat) : List Char × List Char :=
  match hint.bind (Utf8.splitAt? · text) with
  | some cut => cut
  | none => (text.takeWhile (!isBlank ·), text.dropWhile (!isBlank ·))

/-- Mnemonic and operands of a line. The operands start after the blanks that follow the
mnemonic. -/
def splitRendered (text : List Char) (hint : Option Nat) : List Char × List Char :=
  let cut := cutMnemonic text hint
  (cut.1, cut.2.dropWhile isBlank)

theorem splitAt?_append {offset : Nat} {text : List Char} {cut : List Char × List Char}
    (h : Utf8.splitAt? offset text = some cut) : cut.1 ++ cut.2 = text := by
  induction text generalizing offset cut with
  | nil =>
    rw [Utf8.splitAt?] at h
    split at h
    · cases h; rfl
    · cases h
  | cons c rest ih =>
    rw [Utf8.splitAt?] at h
    split at h
    · cases h; rfl
    · split at h
      · obtain ⟨inner, hi, rfl⟩ := Option.map_eq_some_iff.1 h
        simp [ih hi]
      · cases h

theorem cutMnemonic_append (text : List Char) (hint : Option Nat) :
    (cutMnemonic text hint).1 ++ (cutMnemonic text hint).2 = text := by
  rw [cutMnemonic]
  split
  · rename_i cut h
    obtain ⟨offset, _, h⟩ := Option.bind_eq_some_iff.1 h
    exact splitAt?_append h
  · exact List.takeWhile_append_dropWhile

end Disassembly.Text
