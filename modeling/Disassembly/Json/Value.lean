import Disassembly.Text.Numeral
/-!
JSON documents and their two written forms: compact, on one line and without blanks, and pretty,
with every element on a line of its own and two spaces of indentation per level.
-/
namespace Disassembly.Json

inductive Value where
  | null
  | bool (b : Bool)
  | number (n : Nat)
  | string (text : String)
  | array (items : List Value)
  | object (members : List (String × Value))

def escapeChar (c : Char) : List Char :=
  if c = '"' then ['\\', '"']
  else if c = '\\' then ['\\', '\\']
  else if c = '\n' then ['\\', 'n']
  else if c = '\r' then ['\\', 'r']
  else if c = '\t' then ['\\', 't']
  else if c = '\x08' then ['\\', 'b']
  else if c = '\x0c' then ['\\', 'f']
  else if c.toNat < 0x20 then ['\\', 'u', '0', '0'] ++ Numeral.hexByte c.toNat.toUInt8
  else [c]

def quoted (text : String) : List Char := '"' :: text.toList.flatMap escapeChar ++ ['"']

/-- Whether and how deep elements are put on lines of their own. -/
inductive Layout where
  | compact
  | pretty (depth : Nat)

namespace Layout

def inner : Layout → Layout
  | compact => compact
  | pretty depth => pretty (depth + 1)

def line : Layout → List Char
  | compact => []
  | pretty depth => '\n' :: List.replicate (2 * depth) ' '

def colon : Layout → List Char
  | compact => [':']
  | pretty _ => [':', ' ']

end Layout

/-- Elements between brackets, each on a line of the inner layout. -/
def bracketed (opening closing : Char) (layout : Layout) : List (List Char) → List Char
  | [] => [opening, closing]
  | first :: rest =>
    opening :: (layout.inner.line ++ first ++
      rest.flatMap (fun item => ',' :: (layout.inner.line ++ item)) ++ layout.line ++ [closing])

mutual

def write (layout : Layout) : Value → List Char
  | .null => "null".toList
  | .bool b => (toString b).toList
  | .number n => Nat.toDigits 10 n
  | .string text => quoted text
  | .array items => bracketed '[' ']' layout (writeItems layout.inner items)
  | .object members => bracketed '\x7b' '\x7d' layout (writeMembers layout.inner members)

def writeItems (layout : Layout) : List Value → List (List Char)
  | [] => []
  | item :: rest => write layout item :: writeItems layout rest

def writeMembers (layout : Layout) : List (String × Value) → List (List Char)
  | [] => []
  | (name, value) :: rest =>
    (quoted name ++ layout.colon ++ write layout value) :: writeMembers layout rest

end

def Value.compact (value : Value) : String := String.ofList (write .compact value)

def Value.pretty (value : Value) : String := String.ofList (write (.pretty 0) value)

end Disassembly.Json
