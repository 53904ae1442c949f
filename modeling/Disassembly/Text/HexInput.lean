import Disassembly.Text.Quoted
import Disassembly.Text.Utf8
/-!
Bytes as people type them: pairs of hexadecimal digits with ASCII blanks anywhere between digits.
The digits are paired as bytes of the text, so that a pair may cut through a character.
-/
namespace Disassembly.Utf8

/-- The first place where bytes stop being UTF-8: how many bytes before it are valid, and how many
from it on are broken, unless the bytes merely end too early. -/
structure Break where
  valid : Nat
  broken : Option Nat
  deriving DecidableEq, Repr

def Break.message (place : Break) : String :=
  match place.broken with
  | some n =>
    "invalid utf-8 sequence of " ++ toString n ++ " bytes from index " ++ toString place.valid
  | none => "incomplete utf-8 byte sequence from index " ++ toString place.valid

def width? (b : UInt8) : Option Nat :=
  if b < 0x80 then some 1
  else if 0xC2 ≤ b ∧ b ≤ 0xDF then some 2
  else if 0xE0 ≤ b ∧ b ≤ 0xEF then some 3
  else if 0xF0 ≤ b ∧ b ≤ 0xF4 then some 4
  else none

def isSecond (first b : UInt8) : Bool :=
  let low : UInt8 := if first = 0xE0 then 0xA0 else if first = 0xF0 then 0x90 else 0x80
  let high : UInt8 := if first = 0xED then 0x9F else if first = 0xF4 then 0x8F else 0xBF
  low ≤ b && b ≤ high

/-- How many bytes of a character's rest are as they should be, and whether one that is not
follows. -/
def goodRest (first : UInt8) (position : Nat) : List UInt8 → Nat × Bool
  | [] => (0, false)
  | b :: rest =>
    if (if position = 1 then isSecond first b else 0x80 ≤ b && b ≤ 0xBF) then
      let (good, bad) := goodRest first (position + 1) rest
      (good + 1, bad)
    else (0, true)

def findBreak (valid : Nat) (bytes : List UInt8) : Option Break :=
  match bytes with
  | [] => none
  | first :: rest =>
    match width? first with
    | none => some ⟨valid, some 1⟩
    | some width =>
      match goodRest first 1 (rest.take (width - 1)) with
      | (good, true) => some ⟨valid, some (good + 1)⟩
      | (good, false) =>
        if good = width - 1 then findBreak (valid + width) (rest.drop (width - 1))
        else some ⟨valid, none⟩
termination_by bytes.length
decreasing_by simp only [List.length_cons, List.length_drop]; omega

end Disassembly.Utf8

namespace Disassembly.HexInput

inductive Fault where
  | oddDigits
  /-- A pair cuts through a character. -/
  | notAscii (place : Utf8.Break)
  | badByte (pair : List Char) (fault : Numeral.Fault)
  deriving DecidableEq, Repr

def Fault.chain : Fault → List String
  | oddDigits => ["hex input has an odd number of digits"]
  | notAscii place => ["hex input is not ASCII", place.message]
  | badByte pair fault => ["invalid hex byte " ++ Text.quote pair, fault.message]

/-- The blanks that may stand between digits. A vertical tab is none of them. -/
def isBlank (b : UInt8) : Bool :=
  b == 0x20 || b == 0x09 || b == 0x0A || b == 0x0C || b == 0x0D

def readPair (a b : UInt8) : Except Fault UInt8 :=
  match Utf8.decode? [a, b] with
  | some pair =>
    match Numeral.read 16 256 pair with
    | .ok n => .ok n.toUInt8
    | .error fault => .error (.badByte pair fault)
  | none => .error (.notAscii ((Utf8.findBreak 0 [a, b]).getD ⟨0, none⟩))

def readPairs : List UInt8 → Except Fault (List UInt8)
  | a :: b :: rest =>
    match readPair a b with
    | .error fault => .error fault
    | .ok byte =>
      match readPairs rest with
      | .error fault => .error fault
      | .ok bytes => .ok (byte :: bytes)
  | _ => .ok []

def decode (text : String) : Except Fault (List UInt8) :=
  let digits := (Utf8.encode text.toList).filter (!isBlank ·)
  if digits.length % 2 ≠ 0 then .error .oddDigits else readPairs digits

end Disassembly.HexInput
