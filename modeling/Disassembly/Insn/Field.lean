import Disassembly.Text.Utf8
/-!
Byte fields of a fixed size. A field is filled from the front and padded with zeros. A text field
holds the UTF-8 of a text that was cut at a character boundary so that at least one zero follows;
it is read up to its first zero.
-/
namespace Disassembly

structure Field (size : Nat) where
  bytes : List UInt8
  length_bytes : bytes.length = size
  deriving DecidableEq

namespace Field

@[ext] theorem ext {a b : Field size} (h : a.bytes = b.bytes) : a = b := by
  cases a; cases b; cases h; rfl

def zero (size : Nat) : Field size := ⟨List.replicate size 0, List.length_replicate⟩

def ofBytes (size : Nat) (bytes : List UInt8) : Field size where
  bytes := bytes.take size ++ List.replicate (size - bytes.length) 0
  length_bytes := by simp only [List.length_append, List.length_take, List.length_replicate]; omega

/-- The longest prefix of a text that fits with a zero behind it. -/
def fitting (size : Nat) (text : List Char) : List Char := Utf8.takeBytes (size - 1) text

def ofText (size : Nat) (text : String) : Field size :=
  ofBytes size (Utf8.encode (fitting size text.toList))

def content (field : Field size) : List UInt8 := field.bytes.takeWhile (· != 0)

/-- The text of a field; bytes that are no UTF-8 have no text. -/
def text (field : Field size) : String :=
  match Utf8.decode? field.content with
  | some text => String.ofList text
  | none => ""

theorem bytes_ofBytes_of_length_le {bytes : List UInt8} (h : bytes.length ≤ size) :
    (ofBytes size bytes).bytes = bytes ++ List.replicate (size - bytes.length) 0 := by
  simp [ofBytes, List.take_of_length_le h]

theorem bytes_ofText (size : Nat) (text : String) :
    (ofText size text).bytes = Utf8.encode (fitting size text.toList) ++
      List.replicate (size - Utf8.byteSize (fitting size text.toList)) 0 := by
  have h : (Utf8.encode (fitting size text.toList)).length ≤ size := by
    rw [Utf8.length_encode]
    exact Nat.le_trans (Utf8.byteSize_takeBytes_le _ _) (Nat.sub_le _ _)
  rw [ofText, bytes_ofBytes_of_length_le h, Utf8.length_encode]

end Field

end Disassembly
