import Disassembly.Insn.Field
import Mathlib.Data.List.TakeWhile
/-!
# Texts in fields

What is read back from a text field is what was written to it, cut where the field ends and at its
first zero. Reading and writing once more makes no difference.
-/
namespace Disassembly

namespace Utf8

theorem byteSize_append (a b : List Char) : byteSize (a ++ b) = byteSize a + byteSize b := by
  induction a with
  | nil => simp [byteSize]
  | cons c a ih => simp [byteSize, ih, Nat.add_assoc]

/-- Only the zero character has a zero byte. -/
theorem zero_mem_encodeChar {c : Char} : 0 ∈ String.utf8EncodeChar c ↔ c = '\x00' := by
  have hzero : c = '\x00' ↔ c.val.toNat = 0 := by
    rw [← Char.val_inj, ← UInt32.toNat_inj]
    rfl
  rw [hzero, String.utf8EncodeChar]
  -- Every byte of a longer encoding has its high bit set.
  repeat' split
  all_goals
    simp only [List.mem_cons, List.not_mem_nil, or_false, ← UInt8.toNat_inj, UInt8.toNat_ofNat',
      UInt8.toNat_zero]
    omega

theorem takeWhile_encode (text : List Char) (n : Nat) :
    (encode text ++ List.replicate n 0).takeWhile (· != 0) =
      encode (text.takeWhile (· != '\x00')) := by
  induction text with
  | nil => cases n <;> rfl
  | cons c rest ih =>
    by_cases hc : c = '\x00'
    · subst hc
      rfl
    · have hbytes : ∀ byte ∈ String.utf8EncodeChar c, (byte != 0) = true := by
        intro byte hmem
        rw [bne_iff_ne]
        rintro rfl
        exact hc (zero_mem_encodeChar.1 hmem)
      have hcons : ∀ text, encode (c :: text) = String.utf8EncodeChar c ++ encode text :=
        fun _ => rfl
      rw [hcons, List.append_assoc, List.takeWhile_append_of_pos hbytes, ih,
        List.takeWhile_cons_of_pos (by simpa using hc), hcons]

theorem takeBytes_of_byteSize_le {budget : Nat} {text : List Char} (h : byteSize text ≤ budget) :
    takeBytes budget text = text := by
  induction text generalizing budget with
  | nil => rfl
  | cons c rest ih =>
    rw [byteSize] at h
    rw [takeBytes, if_pos (by omega), ih (by omega)]

theorem takeBytes_prefix (budget : Nat) (text : List Char) : takeBytes budget text <+: text := by
  induction text generalizing budget with
  | nil => exact List.nil_prefix
  | cons c rest ih =>
    rw [takeBytes]
    split
    · exact List.cons_prefix_cons.2 ⟨rfl, ih _⟩
    · exact List.nil_prefix

theorem encode_of_decode? {bytes : List UInt8} {text : List Char} (h : decode? bytes = some text) :
    encode text = bytes := by
  obtain ⟨chars, hchars, rfl⟩ := Option.map_eq_some_iff.1 h
  have hsome : bytes.toByteArray.utf8Decode?.isSome := by rw [hchars]; rfl
  have hbytes : chars.toList.utf8Encode = bytes.toByteArray := by
    rw [← ByteArray.utf8Encode_get_utf8Decode? (h := hsome)]
    simp [hchars]
  have hlist := congrArg (fun bytes : ByteArray => bytes.data.toList) hbytes
  simpa [List.utf8Encode, encode] using hlist

end Utf8

namespace Field

variable {size : Nat}

theorem text_ofText (size : Nat) (text : String) :
    (ofText size text).text =
      String.ofList ((fitting size text.toList).takeWhile (· != '\x00')) := by
  rw [Field.text, content, bytes_ofText, Utf8.takeWhile_encode, Utf8.decode?_encode]

theorem text_ofText_of_no_zero {text : String} (h : '\x00' ∉ text.toList) :
    (ofText size text).text = String.ofList (Utf8.takeBytes (size - 1) text.toList) := by
  have hall : (fitting size text.toList).takeWhile (· != '\x00') = fitting size text.toList := by
    rw [List.takeWhile_eq_self_iff]
    intro c hc
    rw [bne_iff_ne]
    rintro rfl
    exact h ((Utf8.takeBytes_prefix _ _).subset hc)
  rw [text_ofText, hall, fitting]

theorem text_ofText_of_fits {text : String} (hzero : '\x00' ∉ text.toList)
    (hfits : Utf8.byteSize text.toList ≤ size - 1) : (ofText size text).text = text := by
  rw [text_ofText_of_no_zero hzero, Utf8.takeBytes_of_byteSize_le hfits, String.ofList_toList]

def Terminated (field : Field size) : Prop := 0 ∈ field.bytes

theorem terminated_ofText (hsize : 0 < size) (text : String) : (ofText size text).Terminated := by
  have hle := Utf8.byteSize_takeBytes_le (size - 1) text.toList
  rw [Terminated, bytes_ofText, List.mem_append, List.mem_replicate]
  exact .inr ⟨by rw [fitting]; omega, rfl⟩

theorem length_content_lt {field : Field size} (h : field.Terminated) :
    field.content.length < size := by
  have hbehind : field.bytes.dropWhile (· != 0) ≠ [] := by
    intro hnil
    have hall := List.dropWhile_eq_nil_iff.1 hnil 0 h
    simp at hall
  have hpos := List.length_pos_iff.2 hbehind
  have hboth : field.content ++ field.bytes.dropWhile (· != 0) = field.bytes :=
    List.takeWhile_append_dropWhile
  have hlength := congrArg List.length hboth
  rw [List.length_append, field.length_bytes] at hlength
  omega

/-- What was read from a field can be written to one of the same size. -/
theorem text_ofText_text {field : Field size} (h : field.Terminated) :
    (ofText size field.text).text = field.text := by
  cases hdecode : Utf8.decode? field.content with
  | none =>
    have htext : field.text = "" := by rw [Field.text, hdecode]
    rw [htext]
    exact text_ofText_of_fits (by simp) (Nat.zero_le _)
  | some chars =>
    have htext : field.text = String.ofList chars := by rw [Field.text, hdecode]
    have hbytes := Utf8.encode_of_decode? hdecode
    rw [htext]
    apply text_ofText_of_fits
    · intro hzero
      rw [String.toList_ofList] at hzero
      have hmem : (0 : UInt8) ∈ field.content := by
        rw [← hbytes, Utf8.encode, List.mem_flatMap]
        exact ⟨'\x00', hzero, Utf8.zero_mem_encodeChar.2 rfl⟩
      have hne := List.mem_takeWhile_imp hmem
      simp at hne
    · have hlength := length_content_lt h
      rw [← hbytes, Utf8.length_encode] at hlength
      rw [String.toList_ofList]
      omega

end Field

end Disassembly
