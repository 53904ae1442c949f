import Disassembly.Host
/-!
Grants and payloads. A grant stands for a block that a provider gave out, and remembers which
provider that was; a payload is a value together with the grant that pays for it. What a grant
holds goes back to its own provider exactly once, when the grant is released.
-/
namespace Disassembly

structure Grant where
  provider : ProviderId
  size : UInt64 := 0
  /-- Whether a block stands behind the grant at all. -/
  held : Bool := false
  deriving DecidableEq, Repr

namespace Grant

def empty (provider : ProviderId) : Grant := { provider }

def allocate (host : Host) (provider : ProviderId) (size : UInt64) : Except Error Grant × Host :=
  match host.allocate provider size with
  | (.ok _, host) => (.ok { provider, size, held := true }, host)
  | (.error error, host) => (.error error, host)

def zeroed (host : Host) (provider : ProviderId) (count size : UInt64) :
    Except Error Grant × Host :=
  match host.allocateZeroed provider count size with
  | (.ok _, host) => (.ok { provider, size := count * size, held := true }, host)
  | (.error error, host) => (.error error, host)

/-- The grant after a change of size. A refusal leaves the caller with the grant it had. -/
def resize (grant : Grant) (host : Host) (size : UInt64) : Except Error Grant × Host :=
  match host.reallocate grant.provider grant.size size with
  | (.ok _, host) => (.ok { grant with size, held := true }, host)
  | (.error error, host) => (.error error, host)

def release (grant : Grant) (host : Host) : Host :=
  if grant.held then host.release grant.provider grant.size else host

def releaseAll (grants : List Grant) (host : Host) : Host :=
  grants.foldl (fun host grant => grant.release host) host

end Grant

/-- What a value costs: its own size and the storage it owns besides. -/
class Footprint (α : Type) where
  inlineBytes : Nat
  heapBytes : α → Nat

def Footprint.cost [Footprint α] (value : α) : UInt64 :=
  (inlineBytes α + heapBytes value).toUInt64

structure Payload (α : Type) where
  value : α
  grant : Grant
  deriving DecidableEq

def Payload.allocate [Footprint α] (host : Host) (provider : ProviderId) (value : α) :
    Except Error (Payload α) × Host :=
  match Grant.allocate host provider (Footprint.cost value) with
  | (.ok grant, host) => (.ok { value, grant }, host)
  | (.error error, host) => (.error error, host)

end Disassembly
