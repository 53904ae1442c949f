import Disassembly.Proofs.Text.Boundaries
/-!
# Writing over a text

A text is written to a field in steps: the place to cut it is searched from the last byte that may
be used downwards, the bytes in front of it are copied, and all others become zero. Nothing is left
of what the field held before, and what is read from it can always be read.
-/
namespace Disassembly.Field

open Text (LongestPrefix)

variable {size : Nat} {field : Field size}

/-- The bytes of a field that a text was written over in steps. There are none if the search for
the place to cut the text has to go below its start. -/
def writeOver? (field : Field size) (text : String) : Option (List UInt8) :=
  let bytes := Utf8.encode text.toList
  (Utf8.boundaryUpTo? bytes (min bytes.length (size - 1))).map fun cut =>
    let copied := bytes.take cut ++ field.bytes.drop cut
    copied.take cut ++ List.replicate (size - cut) 0

/-- What a text leaves in a field: the longest part of it that fits with a zero behind it, zeros
only behind that part, and to be read what stands in front of the first zero. -/
structure Stores (field : Field size) (text : String) (kept : List Char) : Prop where
  longest : LongestPrefix (fun front => (Utf8.encode front).length ≤ size - 1) text.toList kept
  bytes : field.bytes = Utf8.encode kept ++ List.replicate (size - (Utf8.encode kept).length) 0
  last : field.bytes.getLast? = some 0
  valid : Utf8.decode? field.content = some (kept.takeWhile (· != '\x00'))
  text : field.text = String.ofList (kept.takeWhile (· != '\x00'))

def Written (field : Field size) : Prop := ∃ text, field = ofText size text

def Readable (field : Field size) : Prop :=
  ∃ text, Utf8.decode? field.content = some text ∧ field.text = String.ofList text

theorem content_ofText (size : Nat) (text : String) :
    (ofText size text).content =
      Utf8.encode ((fitting size text.toList).takeWhile (· != '\x00')) := by
  rw [content, bytes_ofText, Utf8.takeWhile_encode]

theorem stores_ofText (hsize : 0 < size) (text : String) :
    (ofText size text).Stores text (fitting size text.toList) := by
  have hfits := Utf8.byteSize_takeBytes_le (size - 1) text.toList
  refine ⟨Utf8.longestPrefix_takeBytes (size - 1) text.toList, ?_, ?_, ?_, text_ofText size text⟩
  · rw [bytes_ofText, Utf8.length_encode]
  · obtain ⟨zeros, hzeros⟩ : ∃ zeros, size - Utf8.byteSize (fitting size text.toList) = zeros + 1 :=
      Nat.exists_eq_add_one.2 (by rw [fitting]; omega)
    rw [bytes_ofText, hzeros, List.replicate_succ', ← List.append_assoc, List.getLast?_concat]
  · rw [content_ofText, Utf8.decode?_encode]

/-- Written in steps, a text leaves in every field what it would leave in a new one, and the search
never goes below the start. -/
theorem writeOver?_eq (field : Field size) (text : String) :
    field.writeOver? text = some (ofText size text).bytes := by
  have hfront := Utf8.takeBytes_prefix (size - 1) text.toList
  have hbytes := Utf8.encode_front hfront
  have hlength := Utf8.length_encode (Utf8.takeBytes (size - 1) text.toList)
  rw [writeOver?, Utf8.boundaryUpTo?_encode, Option.map_some, ← hbytes, bytes_ofText, fitting,
    ← hlength]
  dsimp only
  rw [List.take_left]

theorem written_zero (size : Nat) : (zero size).Written := by
  refine ⟨"", ext ?_⟩
  rw [bytes_ofText, fitting, zero]
  rfl

theorem Written.readable (h : field.Written) : field.Readable := by
  obtain ⟨text, rfl⟩ := h
  refine ⟨_, ?_, text_ofText size text⟩
  rw [content_ofText, Utf8.decode?_encode]

theorem Written.text_ofText_text (hsize : 0 < size) (h : field.Written) :
    (ofText size field.text).text = field.text := by
  obtain ⟨text, rfl⟩ := h
  exact Field.text_ofText_text (terminated_ofText hsize text)

end Disassembly.Field
