import Disassembly.Text.Blank
import Disassembly.Text.Numeral
/-!
Decoding modes: a word of flags whose meaning depends on the family. Bits without a name are
kept. The text of a mode lists its named flags in order of declaration and then what is left as
one hexadecimal numeral; reading takes names and numerals in any order.
-/
namespace Disassembly

structure Mode where
  bits : UInt32
  deriving DecidableEq, Repr, Inhabited

namespace Mode

def empty : Mode := ⟨0⟩
def mode16 : Mode := ⟨0x2⟩
def mode32 : Mode := ⟨0x4⟩
def mode64 : Mode := ⟨0x8⟩
def thumb : Mode := ⟨0x10⟩
def n64 : Mode := ⟨0x20⟩
def bigEndian : Mode := ⟨0x80000000⟩

def flags : List (String × Mode) :=
  [("MODE_16", mode16), ("MODE_32", mode32), ("MODE_64", mode64), ("THUMB", thumb), ("N64", n64),
    ("BIG_ENDIAN", bigEndian)]

def contains (mode other : Mode) : Bool := mode.bits &&& other.bits == other.bits

def union (mode other : Mode) : Mode := ⟨mode.bits ||| other.bits⟩

def difference (mode other : Mode) : Mode := ⟨mode.bits &&& ~~~other.bits⟩

def isBigEndian (mode : Mode) : Bool := mode.contains bigEndian

def named : Mode := flags.foldl (fun mode flag => mode.union flag.2) empty

def ofBits? (bits : UInt32) : Option Mode :=
  if named.contains ⟨bits⟩ then some ⟨bits⟩ else none

def words (mode : Mode) : List String :=
  let names := (flags.filter fun flag => mode.contains flag.2).map Prod.fst
  let rest := mode.difference named
  if rest = empty then names else names ++ [Numeral.hex rest.bits.toNat]

def text (mode : Mode) : String := " | ".intercalate mode.words

def debug (mode : Mode) : String :=
  "Mode(" ++ (if mode = empty then "0x0" else mode.text) ++ ")"

inductive Fault where
  | unknownName
  | invalidHex
  | emptyFlag
  deriving DecidableEq, Repr

def Fault.message : Fault → String
  | .unknownName => "unrecognized named flag"
  | .invalidHex => "invalid hex flag"
  | .emptyFlag => "encountered empty flag"

/-- One word of a mode's text. Names are matched exactly; the mark of a numeral is `0x`. -/
def readWord (word : List Char) : Except Fault Mode :=
  match word with
  | [] => .error .emptyFlag
  | '0' :: 'x' :: digits =>
    match Numeral.read 16 UInt32.size digits with
    | .ok n => .ok ⟨n.toUInt32⟩
    | .error _ => .error .invalidHex
  | word =>
    match flags.find? (·.1.toList == word) with
    | some flag => .ok flag.2
    | none => .error .unknownName

def splitBars : List Char → List (List Char)
  | [] => [[]]
  | c :: rest =>
    match splitBars rest with
    | [] => [[c]]
    | piece :: pieces => if c = '|' then [] :: piece :: pieces else (c :: piece) :: pieces

def readWords (mode : Mode) : List (List Char) → Except Fault Mode
  | [] => .ok mode
  | word :: rest =>
    match readWord (Text.trim word) with
    | .ok flag => readWords (mode.union flag) rest
    | .error fault => .error fault

/-- Reads the text of a mode; blank text is the empty mode. -/
def read (text : String) : Except Fault Mode :=
  if (Text.trim text.toList).isEmpty then .ok empty else readWords empty (splitBars text.toList)

end Mode

end Disassembly
