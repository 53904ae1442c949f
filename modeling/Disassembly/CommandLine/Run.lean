import Disassembly.CommandLine.Args
import Disassembly.Config
import Disassembly.Decode
import Disassembly.Text.HexInput
/-!
One run of the program: code from an option or a file, a session from options or a configuration,
a dynamic decode, and the records in some format. A run that fails says why, from what it was
doing down to the cause.
-/
namespace Disassembly.CommandLine

/-- How files are read: the bytes of a file, or what the system says about it. -/
abbrev Files := String → Except String (List UInt8)

structure Output where
  stdout : String
  stderr : String
  deriving DecidableEq, Repr

def readCode (args : Args) (files : Files) : Except (List String) (List UInt8) :=
  match args.hex, args.file with
  | some hex, _ => (HexInput.decode hex).mapError HexInput.Fault.chain
  | none, some path => (files path).mapError fun reason => ["read " ++ path, reason]
  | none, none => .error ["either --hex or --file is required"]

def loadConfig (path : String) (files : Files) : Except (List String) SessionConfig :=
  let context := "load config " ++ path
  match files path with
  | .error reason => .error [context, "failed to read config: " ++ reason, reason]
  | .ok bytes =>
    match Utf8.decode? bytes with
    | none =>
      let reason := "stream did not contain valid UTF-8"
      .error [context, "failed to read config: " ++ reason, reason]
    | some text =>
      (SessionConfig.ofJson (String.ofList text)).mapError fun fault =>
        [context, "invalid session config: " ++ fault.name]

def sessionConfig (args : Args) (files : Files) : Except (List String) SessionConfig :=
  match args.config with
  | some path => loadConfig path files
  | none =>
    .ok { arch := args.arch, mode := args.mode, detail := args.detail, dialect := args.dialect }

def rejection (error : Error) : String := "engine rejected config: " ++ error.message

/-- The notice that not all code was decoded, unless a count was asked for. Overflow checks are
taken to be off: the address where decoding stopped wraps. -/
def stopNotice (args : Args) (decoded total : Nat) : String :=
  if decoded < total ∧ args.count = 0 then
    "stopped at " ++ Numeral.hex (args.address + decoded.toUInt64).toNat ++ ": "
      ++ toString decoded ++ " of " ++ toString total ++ " bytes decoded\n"
  else ""

def coveredBytes : List Insn → Nat
  | [] => 0
  | insn :: insns => insn.size.toNat + coveredBytes insns

def run (args : Args) (files : Files) (decoder : Arch → Decoder) : Except (List String) Output := do
  let code ← readCode args files
  let config ← sessionConfig args files
  match Session.ofConfig config (decoder config.arch) {} 0 with
  | (.error error, _) => .error ["open session", rejection error, error.message]
  | (.ok session, host) =>
    match session.disasmAll host code args.address args.count with
    | (.error error, _, _) => .error ["disassemble", error.message]
    | (.ok instructions, _, _) =>
      return {
        stdout := args.format.render instructions.insns args.address
        stderr := stopNotice args (coveredBytes instructions.insns) code.length }

end Disassembly.CommandLine
