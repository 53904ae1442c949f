import Disassembly.Text.Quoted
/-!
Addresses as people type them: a decimal numeral, or a hexadecimal one behind `0x` or `0X`, below
`2 ^ 64`.
-/
namespace Disassembly.Address

def digits (text : List Char) : Nat × List Char :=
  match text with
  | '0' :: 'x' :: rest => (16, rest)
  | '0' :: 'X' :: rest => (16, rest)
  | text => (10, text)

def read (text : String) : Except Numeral.Fault UInt64 :=
  let (radix, digits) := digits text.toList
  match Numeral.read radix UInt64.size digits with
  | .ok n => .ok n.toUInt64
  | .error fault => .error fault

def complaint (text : String) (fault : Numeral.Fault) : String :=
  "invalid address " ++ Text.quote text.toList ++ ": " ++ fault.message

end Disassembly.Address
