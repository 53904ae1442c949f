import Disassembly.Format.Record
import Disassembly.Json.Reader
/-!
Reading a shown record back from JSON. Members without a meaning are skipped, and the payload's
summary may be missing.
-/
namespace Disassembly

open Json

namespace DetailSummary

structure Draft where
  regsRead : Option (List UInt32) := none
  regsWrite : Option (List UInt32) := none
  groups : Option (List UInt32) := none
  operands : Option UInt64 := none

def readId (text : List Char) : Reading UInt32 := reading Nat.toUInt32 (readNat UInt32.size text)

def readCount (text : List Char) : Reading UInt64 := reading Nat.toUInt64 (readNat UInt64.size text)

def form : Form Draft where
  start := {}
  member draft name text :=
    match name with
    | "regs_read" =>
      reading ({ draft with regsRead := · }) (readOnce draft.regsRead (readArray readId) text)
    | "regs_write" =>
      reading ({ draft with regsWrite := · }) (readOnce draft.regsWrite (readArray readId) text)
    | "groups" =>
      reading ({ draft with groups := · }) (readOnce draft.groups (readArray readId) text)
    | "operands" =>
      reading ({ draft with operands := · }) (readOnce draft.operands readCount text)
    | _ => skipMember draft text
  fields :=
    [fun draft text =>
        reading ({ draft with regsRead := · }) (readField true (readArray readId) text),
      fun draft text =>
        reading ({ draft with regsWrite := · }) (readField true (readArray readId) text),
      fun draft text =>
        reading ({ draft with groups := · }) (readField true (readArray readId) text),
      fun draft text => reading ({ draft with operands := · }) (readField true readCount text)]

def Draft.finish (draft : Draft) : Option DetailSummary := do
  return {
    regsRead := ← draft.regsRead
    regsWrite := ← draft.regsWrite
    groups := ← draft.groups
    operands := ← draft.operands }

def read (text : List Char) : Reading DetailSummary :=
  match form.read text with
  | .error fault => .error fault
  | .ok (draft, rest) =>
    match draft.finish with
    | some summary => .ok (summary, rest)
    | none => .error .mismatch

end DetailSummary

namespace Record

structure Draft where
  address : Option String := none
  id : Option UInt32 := none
  size : Option UInt16 := none
  mnemonic : Option String := none
  operands : Option String := none
  bytes : Option String := none
  detail : Option (Option DetailSummary) := none

def readSize (text : List Char) : Reading UInt16 := reading Nat.toUInt16 (readNat UInt16.size text)

def form : Form Draft where
  start := {}
  member draft name text :=
    match name with
    | "address" => reading ({ draft with address := · }) (readOnce draft.address readText text)
    | "id" => reading ({ draft with id := · }) (readOnce draft.id DetailSummary.readId text)
    | "size" => reading ({ draft with size := · }) (readOnce draft.size readSize text)
    | "mnemonic" => reading ({ draft with mnemonic := · }) (readOnce draft.mnemonic readText text)
    | "operands" => reading ({ draft with operands := · }) (readOnce draft.operands readText text)
    | "bytes" => reading ({ draft with bytes := · }) (readOnce draft.bytes readText text)
    | "detail" =>
      reading ({ draft with detail := · })
        (readOnce draft.detail (readOption DetailSummary.read) text)
    | _ => skipMember draft text
  fields :=
    [fun draft text => reading ({ draft with address := · }) (readField true readText text),
      fun draft text => reading ({ draft with id := · }) (readField true DetailSummary.readId text),
      fun draft text => reading ({ draft with size := · }) (readField true readSize text),
      fun draft text => reading ({ draft with mnemonic := · }) (readField true readText text),
      fun draft text => reading ({ draft with operands := · }) (readField true readText text),
      fun draft text => reading ({ draft with bytes := · }) (readField true readText text),
      fun draft text =>
        reading ({ draft with detail := · })
          (readField false (readOption DetailSummary.read) text)]

def Draft.finish (draft : Draft) : Option Record := do
  return {
    address := ← draft.address
    id := ← draft.id
    size := ← draft.size
    mnemonic := ← draft.mnemonic
    operands := ← draft.operands
    bytes := ← draft.bytes
    detail := draft.detail.join }

def read (text : List Char) : Reading Record :=
  match form.read text with
  | .error fault => .error fault
  | .ok (draft, rest) =>
    match draft.finish with
    | some record => .ok (record, rest)
    | none => .error .mismatch

def ofJson (text : String) : Except Fault Record := readDocument read text

end Record

end Disassembly
