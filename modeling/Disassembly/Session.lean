import Disassembly.Family
import Disassembly.Insn.OfDecoded
/-!
Sessions: one configured family each, opened, given options and asked about records. A session
holds the block it lives in and the family's register table, both from the provider it was opened
with, and it remembers the error of its last decode or query until the next one.
-/
namespace Disassembly

def sessionBytes : UInt64 := 128

structure Session where
  arch : Arch
  mode : Mode
  detail : Bool := false
  dialect : Dialect := .default
  backend : Backend
  sideTable : Option (Payload RegisterTable)
  lastError : Option Error := none
  /-- The block the session lives in. Its provider is the one that every request goes to. -/
  grant : Grant

namespace Session

def provider (session : Session) : ProviderId := session.grant.provider

def isBigEndian (session : Session) : Bool := session.mode.isBigEndian

def registerTable (session : Session) : Option RegisterTable :=
  session.sideTable.map Payload.value

def grants (session : Session) : List Grant :=
  (session.sideTable.map Payload.grant).toList ++ [session.grant]

def debug (session : Session) : String :=
  let error := match session.lastError with
    | some error => "Some(" ++ error.name ++ ")"
    | none => "None"
  "Session \x7b arch: " ++ session.arch.name ++ ", mode: " ++ session.mode.debug
    ++ ", detail: " ++ toString session.detail ++ ", syntax: " ++ session.dialect.name
    ++ ", errnum: " ++ error ++ ", .. \x7d"

/-- Takes the session's own block and lets the family be wired; when that fails, the block goes
back and nothing is kept. -/
def assemble (arch : Arch) (mode : Mode) (host : Host) (provider : ProviderId)
    (wire : Host → ProviderId → Except Error Capabilities × Host) : Except Error Session × Host :=
  match Grant.zeroed host provider 1 sessionBytes with
  | (.error error, host) => (.error error, host)
  | (.ok grant, host) =>
    match wire host provider with
    | (.error error, host) => (.error error, grant.release host)
    | (.ok capabilities, host) =>
      (.ok
        { arch, mode, grant
          backend := capabilities.backend
          sideTable := capabilities.sideTable },
        host.note (.opened arch mode))

def openWith (arch : Arch) (mode : Mode) (decoder : Decoder) (host : Host) (provider : ProviderId) :
    Except Error Session × Host :=
  assemble arch mode host provider (arch.wire mode decoder)

def drop (session : Session) (host : Host) : Host := Grant.releaseAll session.grants host

def close (session : Session) (host : Host) : Host :=
  session.drop (host.note (.closing session.arch))

def setDetail (session : Session) (on : Bool) (host : Host) : Session × Host :=
  ({ session with detail := on }, host.note (.option session.arch (.detail on)))

/-- Switches the dialect. One that the family does not know leaves all settings as they were and
is remembered as the last error. -/
def setDialect (session : Session) (dialect : Dialect) (host : Host) :
    Except Error Unit × Session × Host :=
  let host := host.note (.option session.arch (.dialect dialect))
  if session.backend.accepts dialect then (.ok (), { session with dialect }, host)
  else (.error .invalidOption, { session with lastError := some .invalidOption }, host)

theorem setDialect_of_accepts {session : Session} {dialect : Dialect}
    (h : session.backend.accepts dialect = true) (host : Host) :
    session.setDialect dialect host =
      (.ok (), { session with dialect }, host.note (.option session.arch (.dialect dialect))) := by
  rw [setDialect]
  exact if_pos h

theorem setDialect_of_refuses {session : Session} {dialect : Dialect}
    (h : ¬ session.backend.accepts dialect = true) (host : Host) :
    session.setDialect dialect host =
      (.error .invalidOption, { session with lastError := some .invalidOption },
        host.note (.option session.arch (.dialect dialect))) := by
  rw [setDialect]
  exact if_neg h

def regName (session : Session) (reg : UInt32) : Option String :=
  match session.registerTable.bind (·.get? reg) with
  | some name => some name
  | none => session.backend.regName session.dialect reg

def insnName (session : Session) (id : UInt32) : Option String := session.backend.insnName id

/-- Asks a record on behalf of the session. With detail off no record is asked, and the outcome
becomes the last error in any case. -/
def query (session : Session) (insn : Insn) (ask : Insn → Except Error α) :
    Except Error α × Session :=
  let answer := if session.detail then ask insn else .error .detailUnavailable
  let error := match answer with
    | .ok _ => none
    | .error error => some error
  (answer, { session with lastError := error })

def queryFlag (session : Session) (insn : Insn) (ask : Insn → Except Error Bool) :
    Bool × Session :=
  match session.query insn ask with
  | (.ok flag, session) => (flag, session)
  | (.error _, session) => (false, session)

def insnGroup (session : Session) (insn : Insn) (group : UInt32) : Bool × Session :=
  session.queryFlag insn (·.inGroup group)

def regRead (session : Session) (insn : Insn) (reg : UInt32) : Bool × Session :=
  session.queryFlag insn (·.readsReg reg)

def regWrite (session : Session) (insn : Insn) (reg : UInt32) : Bool × Session :=
  session.queryFlag insn (·.writesReg reg)

def maxCount : Nat := UInt32.size / 2 - 1

/-- Number of operands of a kind; an error reads as `-1`. -/
def opCount (session : Session) (insn : Insn) (kind : OperandKind) : Int × Session :=
  match session.query insn (·.opCount kind) with
  | (.ok count, session) => (Int.ofNat (min count maxCount), session)
  | (.error _, session) => (-1, session)

def opIndex (session : Session) (insn : Insn) (kind : OperandKind) (nth : Nat) : Int × Session :=
  match session.query insn (·.opIndex kind nth) with
  | (.ok (some index), session) => (if index ≤ maxCount then Int.ofNat index else -1, session)
  | (.ok none, session) => (-1, session)
  | (.error _, session) => (-1, session)

end Session

end Disassembly
