import Disassembly.Family.Decoder
import Disassembly.Family.X86
/-!
The families: which modes each one runs in, which dialects its printer knows, and how it is wired
to the decoder. All families but x86 keep a register table.
-/
namespace Disassembly

inductive Machine where
  | arm
  | thumb
  | mips32
  | mips64
  | mode16
  | mode32
  | mode64
  deriving DecidableEq, Repr

def Machine.name : Machine → String
  | arm => "Arm"
  | thumb => "Thumb"
  | mips32 => "Mips32"
  | mips64 => "Mips64"
  | mode16 => "Mode16"
  | mode32 => "Mode32"
  | mode64 => "Mode64"

namespace Arch

def machine? (arch : Arch) (mode : Mode) : Option Machine :=
  match arch with
  | arm =>
    if (Mode.thumb.union .bigEndian).contains mode then
      some (if mode.contains .thumb then .thumb else .arm)
    else none
  | arm64 => if Mode.bigEndian.contains mode then some .arm else none
  | mips =>
    if mode.difference .bigEndian = .mode32 then some .mips32
    else if mode.difference .bigEndian = .mode64 then some .mips64
    else none
  | ppc =>
    if mode.difference .bigEndian = .mode32 then some .mode32
    else if mode.difference .bigEndian = .mode64 then some .mode64
    else none
  | x86 =>
    if mode = .mode16 then some .mode16
    else if mode = .mode32 then some .mode32
    else if mode = .mode64 then some .mode64
    else none

def dialects : Arch → List Dialect
  | x86 => [.default, .intel, .att]
  | ppc => [.default, .noRegName]
  | arm | arm64 | mips => []

def keepsTable (arch : Arch) : Bool := arch != x86

def backend (arch : Arch) (decoder : Decoder) : Backend :=
  let plain : Backend :=
    { decode := arch.decode decoder
      regName := regName decoder
      insnName := decoder.insnName
      accepts := arch.dialects.contains }
  if arch = x86 then plain.likeX86 else plain

def readyEvent (arch : Arch) (machine : Machine) : LogEvent :=
  let registers := toString RegisterTable.slots ++ " register names"
  match arch with
  | x86 => .ready "x86" machine.name
  | arm => .ready "ARM" (machine.name ++ ", " ++ registers)
  | arm64 => .ready "ARM64" registers
  | mips => .ready "MIPS" (machine.name ++ ", " ++ registers)
  | ppc => .ready "PPC" (machine.name ++ ", " ++ registers)

/-- Checks the mode, wires the collaborator and builds the register table. -/
def wire (arch : Arch) (mode : Mode) (decoder : Decoder) (host : Host) (provider : ProviderId) :
    Except Error Capabilities × Host :=
  match arch.machine? mode with
  | none => (.error .invalidMode, host)
  | some machine =>
    match Capabilities.assemble (arch.backend decoder) arch.keepsTable host provider with
    | (.ok capabilities, host) => (.ok capabilities, host.note (arch.readyEvent machine))
    | (.error error, host) => (.error error, host)

end Arch

end Disassembly
