import Disassembly.Json.Reader
import Disassembly.Json.Value
import Disassembly.Session
/-!
Session configurations: a family, a mode if it is not to be the family's default, whether detail
is wanted, and a dialect. Their JSON has exactly these members, of which only the family is
required.
-/
namespace Disassembly

structure SessionConfig where
  arch : Arch
  mode : Option Mode := none
  detail : Bool := false
  dialect : Dialect := .default
  deriving DecidableEq, Repr

namespace SessionConfig

open Json

def effectiveMode (config : SessionConfig) : Mode := config.mode.getD config.arch.defaultMode

def toJson (config : SessionConfig) : Json.Value :=
  .object <|
    [("arch", .string config.arch.key)] ++
    (config.mode.map fun mode => ("mode", .string mode.text)).toList ++
    [("detail", .bool config.detail), ("syntax", .string config.dialect.key)]

def readMode (text : List Char) : Reading Mode :=
  match readText text with
  | .error fault => .error fault
  | .ok (words, rest) =>
    match Mode.read words with
    | .ok mode => .ok (mode, rest)
    | .error _ => .error .mismatch

def readArch : List Char → Reading Arch := readChoice Arch.keys

def readDialect : List Char → Reading Dialect := readChoice Dialect.keys

structure Draft where
  arch : Option Arch := none
  mode : Option (Option Mode) := none
  detail : Option Bool := none
  dialect : Option Dialect := none

/-- Any member but the four is refused at its name. -/
def form : Form Draft where
  start := {}
  member draft name text :=
    match name with
    | "arch" => reading ({ draft with arch := · }) (readOnce draft.arch readArch text)
    | "mode" => reading ({ draft with mode := · }) (readOnce draft.mode (readOption readMode) text)
    | "detail" => reading ({ draft with detail := · }) (readOnce draft.detail readBool text)
    | "syntax" => reading ({ draft with dialect := · }) (readOnce draft.dialect readDialect text)
    | _ => .error .mismatch
  fields :=
    [fun draft text => reading ({ draft with arch := · }) (readField true readArch text),
      fun draft text =>
        reading ({ draft with mode := · }) (readField false (readOption readMode) text),
      fun draft text => reading ({ draft with detail := · }) (readField false readBool text),
      fun draft text => reading ({ draft with dialect := · }) (readField false readDialect text)]

def Draft.finish (draft : Draft) : Option SessionConfig :=
  draft.arch.map fun arch =>
    { arch
      mode := draft.mode.join
      detail := draft.detail.getD false
      dialect := draft.dialect.getD .default }

def read (text : List Char) : Reading SessionConfig :=
  match form.read text with
  | .error fault => .error fault
  | .ok (draft, rest) =>
    match draft.finish with
    | some config => .ok (config, rest)
    | none => .error .mismatch

def ofJson (text : String) : Except Fault SessionConfig := readDocument read text

end SessionConfig

namespace Session

/-- Opens a session and applies a configuration to it. A dialect that the family does not know
ends the session again. -/
def ofConfig (config : SessionConfig) (decoder : Decoder) (host : Host) (provider : ProviderId) :
    Except Error Session × Host :=
  match openWith config.arch config.effectiveMode decoder host provider with
  | (.error error, host) => (.error error, host)
  | (.ok session, host) =>
    let (session, host) := session.setDetail config.detail host
    if config.dialect = .default then (.ok session, host)
    else
      match session.setDialect config.dialect host with
      | (.ok _, session, host) => (.ok session, host)
      | (.error error, session, host) => (.error error, session.drop host)

end Session

end Disassembly
