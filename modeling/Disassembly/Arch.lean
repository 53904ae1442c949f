import Disassembly.Mode
import Disassembly.Text.Choice
/-!
The instruction-set families and the output dialects of their printers.
-/
namespace Disassembly

inductive Arch where
  | arm
  | arm64
  | mips
  | x86
  | ppc
  deriving DecidableEq, Repr, Inhabited

namespace Arch

def all : List Arch := [arm, arm64, mips, x86, ppc]

def code : Arch → UInt32
  | arm => 0
  | arm64 => 1
  | mips => 2
  | x86 => 3
  | ppc => 4

def ofCode? (code : UInt32) : Option Arch := all.find? (·.code == code)

def everyFamily : UInt32 := 0xFFFF

/-- Whether a code names something this engine serves: a family, or all of them. -/
def supports (code : UInt32) : Bool := code == everyFamily || (ofCode? code).isSome

def title : Arch → String
  | arm => "ARM"
  | arm64 => "ARM64"
  | mips => "MIPS"
  | x86 => "x86"
  | ppc => "PowerPC"

def key : Arch → String
  | arm => "arm"
  | arm64 => "arm64"
  | mips => "mips"
  | x86 => "x86"
  | ppc => "ppc"

def name : Arch → String
  | arm => "Arm"
  | arm64 => "Arm64"
  | mips => "Mips"
  | x86 => "X86"
  | ppc => "Ppc"

def keys : List (String × Arch) := all.map fun arch => (arch.key, arch)

def defaultMode : Arch → Mode
  | arm | arm64 => Mode.empty
  | x86 => Mode.mode32
  | mips | ppc => Mode.mode32.union Mode.bigEndian

theorem ofCode?_code (arch : Arch) : ofCode? arch.code = some arch := by
  cases arch <;> rfl

end Arch

/-- How a family's printer writes operands. -/
inductive Dialect where
  | default
  | intel
  | att
  | noRegName
  deriving DecidableEq, Repr, Inhabited

namespace Dialect

def all : List Dialect := [default, intel, att, noRegName]

def name : Dialect → String
  | default => "Default"
  | intel => "Intel"
  | att => "Att"
  | noRegName => "NoRegName"

def key : Dialect → String
  | default => "default"
  | intel => "intel"
  | att => "att"
  | noRegName => "noregname"

def optionKey : Dialect → String
  | noRegName => "no-reg-name"
  | dialect => dialect.key

def keys : List (String × Dialect) := all.map fun dialect => (dialect.key, dialect)

def optionKeys : List (String × Dialect) := all.map fun dialect => (dialect.optionKey, dialect)

end Dialect

end Disassembly
