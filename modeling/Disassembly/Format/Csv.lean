/-!
Comma-separated values: one row per line, each line ended by a line feed. A field that holds a
comma, a quote or a line break is put between quotes, with the quotes inside it doubled.
-/
namespace Disassembly.Csv

def isSpecial (c : Char) : Bool := c == ',' || c == '"' || c == '\n' || c == '\r'

def writeField (field : List Char) : List Char :=
  if field.any isSpecial then
    '"' :: field.flatMap (fun c => if c = '"' then ['"', '"'] else [c]) ++ ['"']
  else field

def writeRow (row : List String) : List Char :=
  [','].intercalate (row.map fun field => writeField field.toList) ++ ['\n']

def writeRows (rows : List (List String)) : String := String.ofList (rows.flatMap writeRow)

end Disassembly.Csv
