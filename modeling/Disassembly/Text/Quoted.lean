import Disassembly.Text.Numeral
import Disassembly.Text.Unprintable
/-!
Quoted texts, as error messages show them: the text between double quotes, with a backslash
before a quote and a backslash, short escapes for the common controls and code points in
hexadecimal for everything else that has no visible form.
-/
namespace Disassembly.Text

def quoteChar (c : Char) : List Char :=
  if c = '"' then ['\\', '"']
  else if c = '\\' then ['\\', '\\']
  else if c = '\n' then ['\\', 'n']
  else if c = '\r' then ['\\', 'r']
  else if c = '\t' then ['\\', 't']
  else if c.toNat = 0 then ['\\', '0']
  else if isUnprintable c then
    ['\\', 'u', '\x7b'] ++ Numeral.hexDigits c.toNat ++ ['\x7d']
  else [c]

def quote (text : List Char) : String :=
  String.ofList ('"' :: text.flatMap quoteChar ++ ['"'])

end Disassembly.Text
