import Disassembly.Log
/-!
The host of the engine: the memory providers it may ask, each under its number, and the log it
writes to. An operation of the engine is a function from one state of the host to the next.
-/
namespace Disassembly

abbrev ProviderId := Nat

structure Host where
  providers : List Provider := []
  /-- What was reported, the newest event first. -/
  log : List LogEvent := []

namespace Host

/-- The provider of a given number; a number that was never given out means the system. -/
def provider (host : Host) (id : ProviderId) : Provider := host.providers.getD id .system

def setProvider (host : Host) (id : ProviderId) (provider : Provider) : Host :=
  { host with providers := host.providers.set id provider }

def note (host : Host) (event : LogEvent) : Host := { host with log := event :: host.log }

def events (host : Host) : List LogEvent := host.log.reverse

def quiet (host : Host) : Host := { host with log := [] }

def allocate (host : Host) (id : ProviderId) (size : UInt64) : Except Error Unit × Host :=
  let (answer, provider) := (host.provider id).allocate size
  (answer, host.setProvider id provider)

def allocateZeroed (host : Host) (id : ProviderId) (count size : UInt64) :
    Except Error Unit × Host :=
  let (answer, provider) := (host.provider id).allocateZeroed count size
  (answer, host.setProvider id provider)

def reallocate (host : Host) (id : ProviderId) (old new : UInt64) : Except Error Unit × Host :=
  let (answer, provider) := (host.provider id).reallocate old new
  (answer, host.setProvider id provider)

def release (host : Host) (id : ProviderId) (size : UInt64) : Host :=
  host.setProvider id ((host.provider id).release size)

end Host

end Disassembly
