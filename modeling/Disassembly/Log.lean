import Disassembly.Arch
import Disassembly.Memory.Provider
/-!
What the engine reports about its work: events with a level and a wording.
-/
namespace Disassembly

inductive Level where
  | trace
  | debug
  | warn
  deriving DecidableEq, Repr

def Level.name : Level → String
  | trace => "TRACE"
  | debug => "DEBUG"
  | warn => "WARN"

/-- A runtime option; `μ` says how a memory provider is given. -/
inductive Opt (μ : Type) where
  | memory (provider : μ)
  | detail (on : Bool)
  | dialect (chosen : Dialect)

def Opt.debug : Opt Provider → String
  | memory provider => "Memory(" ++ provider.debug ++ ")"
  | detail on => "Detail(" ++ toString on ++ ")"
  | dialect chosen => "Syntax(" ++ chosen.name ++ ")"

inductive LogEvent where
  /-- A family is wired; `note` names the machine and the size of its register table. -/
  | ready (family note : String)
  | opened (arch : Arch) (mode : Mode)
  | option (arch : Arch) (opt : Opt Provider)
  | closing (arch : Arch)
  | decoded (address : UInt64) (text : String)
  | folded (address : UInt64)
  | flushed (staged total : Nat)
  | aborted (address : UInt64) (error : Error)

namespace LogEvent

def level : LogEvent → Level
  | ready .. | opened .. | option .. | closing .. => .debug
  | decoded .. | folded .. | flushed .. => .trace
  | aborted .. => .warn

def message : LogEvent → String
  | ready family note => family ++ " backend ready (" ++ note ++ ")"
  | opened arch mode => "opened " ++ arch.title ++ " session, mode " ++ mode.debug
  | option arch opt => arch.title ++ " session option " ++ opt.debug
  | closing arch => "closing " ++ arch.title ++ " session"
  | decoded address text => Numeral.hex address.toNat ++ ": " ++ text
  | folded address => Numeral.hex address.toNat ++ " folded into its predecessor"
  | flushed staged total =>
    "flushed " ++ toString staged ++ " records, region now " ++ toString total ++ " records"
  | aborted address error =>
    "dynamic decode at " ++ Numeral.hex address.toNat ++ " aborted: " ++ error.message

end LogEvent

end Disassembly
