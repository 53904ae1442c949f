import Disassembly.Format.RecordReader
/-!
Reading a whole document back from JSON: the base address and the records. Members without a
meaning are skipped here too.
-/
namespace Disassembly

open Json

structure Document where
  baseAddress : String
  instructions : List Record
  deriving DecidableEq, Repr

namespace Document

structure Draft where
  baseAddress : Option String := none
  instructions : Option (List Record) := none

def form : Form Draft where
  start := {}
  member draft name text :=
    match name with
    | "base_address" =>
      reading ({ draft with baseAddress := · }) (readOnce draft.baseAddress readText text)
    | "instructions" =>
      reading ({ draft with instructions := · })
        (readOnce draft.instructions (readArray Record.read) text)
    | _ => skipMember draft text
  fields :=
    [fun draft text => reading ({ draft with baseAddress := · }) (readField true readText text),
      fun draft text =>
        reading ({ draft with instructions := · }) (readField true (readArray Record.read) text)]

def Draft.finish (draft : Draft) : Option Document := do
  return { baseAddress := ← draft.baseAddress, instructions := ← draft.instructions }

def read (text : List Char) : Reading Document :=
  match form.read text with
  | .error fault => .error fault
  | .ok (draft, rest) =>
    match draft.finish with
    | some document => .ok (document, rest)
    | none => .error .mismatch

def ofJson (text : String) : Except Fault Document := readDocument read text

end Document

end Disassembly
