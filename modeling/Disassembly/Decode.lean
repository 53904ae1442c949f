import Disassembly.Decode.Buffer
import Disassembly.Session
/-!
The two decode loops. Both walk the code from front to back: one instruction is decoded at the
head of what remains, becomes a record, and the loop goes on behind it. The first place that
cannot be decoded ends the loop and is no error; only memory can fail, and a dynamic decode that
fails gives back all it took.
-/
namespace Disassembly.Session

/-- What can be used of the decoder's answer: something that covers at least one byte and no more
than there are. -/
def decodeHead (session : Session) (code : List UInt8) (address : UInt64) : Option Decoded :=
  match session.backend.decode session.dialect code address session.detail with
  | none => none
  | some decoded =>
    if decoded.size = 0 ∨ code.length < decoded.size.toNat then none else some decoded

def next (session : Session) (host : Host) (code : List UInt8) (address : UInt64) :
    Except Error (Option Insn) × Host :=
  match session.decodeHead code address with
  | none => (.ok none, host)
  | some decoded =>
    let text := decoded.render (host.provider session.provider)
    match decoded.requestPayload host session.provider session.detail with
    | (.error error, host) => (.error error, host)
    | (.ok payload, host) =>
      let insn := Insn.ofDecoded session.backend session.detail decoded text code payload
      (.ok (some insn), host.note (.decoded insn.address insn.display))

/-- What a fixed decode leaves behind: the records written, the slots not reached, and the error
that ended it, if one did. -/
structure Filled where
  produced : List Insn
  untouched : List Insn
  error : Option Error

def Filled.slots (filled : Filled) : List Insn := filled.produced ++ filled.untouched

/-- Decodes into slots until they, the code or what can be decoded run out. What a slot held
before is given back once its new record is there. -/
def fill (session : Session) (host : Host) (code : List UInt8) (address : UInt64) :
    List Insn → Filled × Host
  | [] => (⟨[], [], none⟩, host)
  | slot :: slots =>
    if code.isEmpty then (⟨[], slot :: slots, none⟩, host)
    else match session.next host code address with
    | (.error error, host) => (⟨[], slot :: slots, some error⟩, host)
    | (.ok none, host) => (⟨[], slot :: slots, none⟩, host)
    | (.ok (some insn), host) =>
      let (filled, host) := session.fill (Grant.releaseAll slot.grants host)
        (code.drop insn.size.toNat) (address + insn.size.toUInt64) slots
      ({ filled with produced := insn :: filled.produced }, host)

def disasm (session : Session) (host : Host) (code : List UInt8) (address : UInt64)
    (slots : List Insn) : Filled × Session × Host :=
  let (filled, host) := session.fill host code address slots
  (filled, { session with lastError := filled.error }, host)

def append (session : Session) (host : Host) (buffer : Buffer) (insn : Insn) (address : UInt64)
    (produced : Nat) : Except Error (Buffer × Nat) × Host :=
  let offer := session.backend.combine insn buffer.last
  let buffer := buffer.withLast offer.last
  let host := Grant.releaseAll offer.dropped host
  -- A folded record is gone, with whatever it still holds.
  if offer.folded then
    (.ok (buffer, produced),
      Grant.releaseAll offer.insn.grants (host.note (.folded address)))
  else
    match buffer.push offer.insn host with
    | (.ok buffer, host) => (.ok (buffer, produced + 1), host)
    | (.error error, host) => (.error error, host)

theorem length_drop_lt {code : List UInt8} {size : UInt16} (hcode : code ≠ [])
    (hsize : size ≠ 0) : (code.drop size.toNat).length < code.length := by
  have h1 : 0 < code.length := List.length_pos_iff.2 hcode
  have h2 : size.toNat ≠ 0 := fun h => hsize (UInt16.toNat_inj.1 (by simpa using h))
  simp only [List.length_drop]
  omega

/-- The dynamic loop: `produced` records are in the buffer, and `count`, unless zero, is where to
stop. A record that covers nothing would not lead on and ends the loop. -/
def sweep (session : Session) (host : Host) (code : List UInt8) (address : UInt64) (count : Nat)
    (buffer : Buffer) (produced : Nat) : Except Error Buffer × Host :=
  if hcode : code = [] then (.ok buffer, host)
  else match session.next host code address with
  | (.error error, host) => (.error error, buffer.drop host)
  | (.ok none, host) => (.ok buffer, host)
  | (.ok (some insn), host) =>
    match session.append host buffer insn address produced with
    | (.error error, host) => (.error error, host)
    | (.ok (buffer, produced), host) =>
      if 0 < count ∧ produced = count then (.ok buffer, host)
      else if hsize : insn.size = 0 then (.ok buffer, host)
      else
        have := length_drop_lt hcode hsize
        session.sweep host (code.drop insn.size.toNat) (address + insn.size.toUInt64) count
          buffer produced
termination_by code.length
decreasing_by exact this

def collect (session : Session) (host : Host) (code : List UInt8) (address : UInt64)
    (count : Nat) : Except Error Instructions × Host :=
  match session.sweep host code address count (.empty session.provider) 0 with
  | (.error error, host) => (.error error, host)
  | (.ok buffer, host) => buffer.finish host

/-- Dynamic decode: all records there are, or `count` of them unless it is zero. A refusal aborts
it as a whole and is remembered. -/
def disasmAll (session : Session) (host : Host) (code : List UInt8) (address : UInt64)
    (count : Nat) : Except Error Instructions × Session × Host :=
  match session.collect host code address count with
  | (.ok instructions, host) => (.ok instructions, { session with lastError := none }, host)
  | (.error error, host) =>
    (.error error, { session with lastError := some error }, host.note (.aborted address error))

end Disassembly.Session
