/-!
UTF-8 as a list of bytes. A prefix of a text is measured in bytes but always cut between two
characters: `takeBytes` finds the longest one within a budget, `splitAt?` refuses a byte offset
inside a character.
-/
namespace Disassembly.Utf8

def encode (text : List Char) : List UInt8 := text.flatMap String.utf8EncodeChar

def decode? (bytes : List UInt8) : Option (List Char) :=
  bytes.toByteArray.utf8Decode?.map Array.toList

def byteSize : List Char → Nat
  | [] => 0
  | c :: rest => c.utf8Size + byteSize rest

/-- The longest prefix that ends at a character boundary and has at most `budget` bytes. -/
def takeBytes (budget : Nat) : List Char → List Char
  | [] => []
  | c :: rest => if c.utf8Size ≤ budget then c :: takeBytes (budget - c.utf8Size) rest else []

/-- Cuts a text after `offset` bytes; an offset past the end or inside a character has no cut. -/
def splitAt? (offset : Nat) (text : List Char) : Option (List Char × List Char) :=
  if offset = 0 then some ([], text)
  else match text with
    | [] => none
    | c :: rest =>
      if c.utf8Size ≤ offset then
        (splitAt? (offset - c.utf8Size) rest).map fun cut => (c :: cut.1, cut.2)
      else none
termination_by structural text

theorem decode?_encode (text : List Char) : decode? (encode text) = some text := by
  have h : (encode text).toByteArray.utf8Decode? = some text.toArray :=
    List.utf8Decode?_utf8Encode
  simp [decode?, h]

theorem length_encode (text : List Char) : (encode text).length = byteSize text := by
  induction text with
  | nil => rfl
  | cons c rest ih => simp_all [encode, byteSize]

theorem byteSize_takeBytes_le (budget : Nat) (text : List Char) :
    byteSize (takeBytes budget text) ≤ budget := by
  induction text generalizing budget with
  | nil => simp [takeBytes, byteSize]
  | cons c rest ih =>
    rw [takeBytes]
    split
    · have := ih (budget - c.utf8Size)
      simp only [byteSize]
      omega
    · simp [byteSize]

end Disassembly.Utf8
