import Disassembly.Insn
/-!
The output of a dynamic decode. Records are staged in a chunk; a full chunk is moved to the
region, which grows by exactly one chunk through the provider, and the last chunk is moved at the
length it has. Read from front to back, region and staged records are one list.
-/
namespace Disassembly

def chunkSize : Nat := 64

def recordBytes : UInt64 := 200

/-- The most records that fit a region: no block takes up half of the address space. -/
def maxRecords : Nat := (UInt64.size / 2 - 1) / recordBytes.toNat

/-- Records handed to the caller, with the grant for the region they are in. -/
structure Instructions where
  insns : List Insn
  grant : Grant

namespace Instructions

def allocatedBytes (instructions : Instructions) : UInt64 := instructions.grant.size

def grants (instructions : Instructions) : List Grant :=
  Insn.allGrants instructions.insns ++ [instructions.grant]

def free (instructions : Instructions) (host : Host) : Host :=
  Grant.releaseAll instructions.grants host

end Instructions

structure Buffer where
  staging : List Insn
  region : List Insn
  grant : Grant

namespace Buffer

def empty (provider : ProviderId) : Buffer :=
  { staging := [], region := [], grant := .empty provider }

def toList (buffer : Buffer) : List Insn := buffer.region ++ buffer.staging

def length (buffer : Buffer) : Nat := buffer.region.length + buffer.staging.length

def last (buffer : Buffer) : Option Insn := buffer.staging.getLast?.or buffer.region.getLast?

def setLast (buffer : Buffer) (insn : Insn) : Buffer :=
  if buffer.staging.isEmpty then
    if buffer.region.isEmpty then buffer
    else { buffer with region := buffer.region.dropLast ++ [insn] }
  else { buffer with staging := buffer.staging.dropLast ++ [insn] }

def withLast (buffer : Buffer) : Option Insn → Buffer
  | some last => buffer.setLast last
  | none => buffer

def grants (buffer : Buffer) : List Grant := Insn.allGrants buffer.toList ++ [buffer.grant]

def drop (buffer : Buffer) (host : Host) : Host := Grant.releaseAll buffer.grants host

/-- Moves the staged records to the region, which grows by their number. The provider is asked
first, then the region itself is extended. A buffer that cannot grow is given back here. -/
def flush (buffer : Buffer) (host : Host) : Except Error Buffer × Host :=
  if buffer.staging.isEmpty then (.ok buffer, host)
  else
    let staged := buffer.staging.length
    match buffer.grant.resize host (buffer.grant.size + staged.toUInt64 * recordBytes) with
    | (.error error, host) => (.error error, buffer.drop host)
    | (.ok grant, host) =>
      let region := buffer.region ++ buffer.staging
      if maxRecords < region.length then
        (.error .outOfMemory, { buffer with grant }.drop host)
      else
        (.ok { staging := [], region, grant }, host.note (.flushed staged region.length))

def stage (buffer : Buffer) (insn : Insn) : Buffer :=
  { buffer with staging := buffer.staging ++ [insn] }

def push (buffer : Buffer) (insn : Insn) (host : Host) : Except Error Buffer × Host :=
  let buffer := buffer.stage insn
  if buffer.staging.length = chunkSize then buffer.flush host else (.ok buffer, host)

def finish (buffer : Buffer) (host : Host) : Except Error Instructions × Host :=
  match buffer.flush host with
  | (.error error, host) => (.error error, host)
  | (.ok buffer, host) => (.ok { insns := buffer.region, grant := buffer.grant }, host)

end Buffer

end Disassembly
