import Disassembly.Format.Csv
import Disassembly.Format.Record
import Disassembly.Text.Blank
import Disassembly.Text.Choice
/-!
The output formats: plain text, one JSON document, one JSON object per line, and rows of
comma-separated values.
-/
namespace Disassembly

inductive Format where
  | text
  | json
  | jsonLines
  | csv
  deriving DecidableEq, Repr, Inhabited

namespace Format

def name : Format → String
  | text => "text"
  | json => "json"
  | jsonLines => "json-lines"
  | csv => "csv"

def keys : List (String × Format) :=
  [("text", text), ("json", json), ("json-lines", jsonLines), ("jsonl", jsonLines), ("csv", csv)]

def ofName? (name : String) : Option Format := Text.choose? true keys name

/-- One line of plain text. The bytes follow behind a semicolon; without any the line ends with
its last visible character. -/
def textLine (insn : Insn) : String :=
  let line := Numeral.paddedHex 8 insn.address.toNat ++ ": " ++ Text.padEnd 10 insn.mnemonic.text
    ++ " " ++ Text.padEnd 30 insn.opStr.text
  let bytes := insn.shownBytes
  if bytes = "" then String.ofList (Text.trimEnd line.toList) else line ++ " ; " ++ bytes

def renderText (insns : List Insn) (base : UInt64) : String :=
  "Disassembly at " ++ Numeral.hex base.toNat ++ ":\n\n" ++
    String.join (insns.map fun insn => textLine insn ++ "\n")

def document (insns : List Insn) (base : UInt64) : Json.Value :=
  .object
    [("base_address", .string (Numeral.hex base.toNat)),
      ("instructions", .array (insns.map fun insn => (Record.ofInsn insn).toJson))]

def renderJson (insns : List Insn) (base : UInt64) : String := (document insns base).pretty

def renderJsonLines (insns : List Insn) : String :=
  String.join (insns.map fun insn => (Record.ofInsn insn).toJson.compact ++ "\n")

def csvHeader : List String :=
  ["base_address", "address", "id", "size", "mnemonic", "operands", "bytes", "operand_count"]

def csvRow (base : UInt64) (insn : Insn) : List String :=
  let record := Record.ofInsn insn
  [Numeral.hex base.toNat, record.address, toString record.id.toNat, toString record.size.toNat,
    record.mnemonic, record.operands, record.bytes,
    (record.detail.map fun summary => toString summary.operands.toNat).getD ""]

/-- The rows under a header; no records, no header. -/
def renderCsv (insns : List Insn) (base : UInt64) : String :=
  if insns.isEmpty then "" else Csv.writeRows (csvHeader :: insns.map (csvRow base))

def render (format : Format) (insns : List Insn) (base : UInt64) : String :=
  match format with
  | text => renderText insns base
  | json => renderJson insns base
  | jsonLines => renderJsonLines insns
  | csv => renderCsv insns base

end Format

end Disassembly
