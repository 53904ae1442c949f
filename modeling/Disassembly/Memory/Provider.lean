import Disassembly.Error
/-!
Memory providers. Every block the engine takes on a caller's behalf is requested from a provider
first, and the provider may count it or refuse it. Sizes are 64-bit words; the counters of live
bytes and blocks wrap, the number of calls does not.
-/
namespace Disassembly

inductive Policy where
  | unlimited
  /-- Refuses to hold more than so many bytes at once. -/
  | limit (bytes : UInt64)
  /-- Decides by the number of calls made before. -/
  | schedule (grants : Nat → Bool)

structure Ledger where
  policy : Policy := .unlimited
  liveBytes : UInt64 := 0
  liveBlocks : UInt64 := 0
  calls : Nat := 0

namespace Ledger

/-- Whether `extra` more bytes may be held. The sum is capped at the largest word, so a limit of
that size never refuses. -/
def admits (ledger : Ledger) (extra : UInt64) : Bool :=
  match ledger.policy with
  | .unlimited => true
  | .limit bytes =>
    decide (min (ledger.liveBytes.toNat + extra.toNat) (UInt64.size - 1) ≤ bytes.toNat)
  | .schedule grants => grants ledger.calls

def isBalanced (ledger : Ledger) : Bool := ledger.liveBytes == 0 && ledger.liveBlocks == 0

/-- Requests a new block. A refused request is counted as a call and as nothing else. -/
def allocate (ledger : Ledger) (size : UInt64) : Except Error Unit × Ledger :=
  let called := { ledger with calls := ledger.calls + 1 }
  if ledger.admits size then
    (.ok (), { called with
      liveBytes := ledger.liveBytes + size, liveBlocks := ledger.liveBlocks + 1 })
  else (.error .outOfMemory, called)

/-- Grows or shrinks a block. Shrinking is never refused, and a block of size zero counts as a
fresh one. -/
def reallocate (ledger : Ledger) (old new : UInt64) : Except Error Unit × Ledger :=
  let called := { ledger with calls := ledger.calls + 1 }
  let blocks := if old = 0 then ledger.liveBlocks + 1 else ledger.liveBlocks
  if old < new then
    if ledger.admits (new - old) then
      (.ok (), { called with liveBytes := ledger.liveBytes + (new - old), liveBlocks := blocks })
    else (.error .outOfMemory, called)
  else (.ok (), { called with liveBytes := ledger.liveBytes - (old - new), liveBlocks := blocks })

def release (ledger : Ledger) (size : UInt64) : Ledger :=
  { ledger with
    calls := ledger.calls + 1
    liveBytes := ledger.liveBytes - size
    liveBlocks := ledger.liveBlocks - 1 }

def debug (ledger : Ledger) : String :=
  let limit := match ledger.policy with
    | .limit bytes => "Some(" ++ toString bytes.toNat ++ ")"
    | _ => "None"
  "TrackingMemory \x7b limit: " ++ limit ++ ", live_bytes: " ++ toString ledger.liveBytes.toNat
    ++ ", live_blocks: " ++ toString ledger.liveBlocks.toNat
    ++ ", calls: " ++ toString ledger.calls ++ " \x7d"

end Ledger

inductive Provider where
  /-- Grants everything and counts nothing. -/
  | system
  | tracking (ledger : Ledger)
  /-- Grants everything, but its text formatting breaks off after a few characters. -/
  | unwritable

instance : Inhabited Provider := ⟨.system⟩

namespace Provider

def ledger? : Provider → Option Ledger
  | tracking ledger => some ledger
  | _ => none

def allocate (provider : Provider) (size : UInt64) : Except Error Unit × Provider :=
  match provider with
  | tracking ledger =>
    let (answer, ledger) := ledger.allocate size
    (answer, tracking ledger)
  | provider => (.ok (), provider)

/-- Requests `count` zeroed items. A total that is no word is refused without a call. -/
def allocateZeroed (provider : Provider) (count size : UInt64) : Except Error Unit × Provider :=
  if count.toNat * size.toNat < UInt64.size then provider.allocate (count * size)
  else (.error .outOfMemory, provider)

def reallocate (provider : Provider) (old new : UInt64) : Except Error Unit × Provider :=
  match provider with
  | tracking ledger =>
    let (answer, ledger) := ledger.reallocate old new
    (answer, tracking ledger)
  | provider => (.ok (), provider)

def release (provider : Provider) (size : UInt64) : Provider :=
  match provider with
  | tracking ledger => tracking (ledger.release size)
  | provider => provider

def format (provider : Provider) (out text : String) : Bool × String :=
  match provider with
  | unwritable => (false, out ++ "part")
  | _ => (true, out ++ text)

def debug : Provider → String
  | system => "SystemMemory"
  | tracking ledger => ledger.debug
  | unwritable => "BadFormat"

end Provider

end Disassembly
