import Disassembly.Config
import Disassembly.Decode
import Disassembly.Family.Rules
import Disassembly.Family.Toy
import Disassembly.Format
import Disassembly.Named
/-!
The engine as its callers see it: open sessions and kept results under names, registries of memory
providers, and the host. One operation takes the whole state to the next and gives an answer.
Results may outlive the session that made them; a registry only matters to sessions opened later.
-/
namespace Disassembly

def apiMajor : UInt32 := 2
def apiMinor : UInt32 := 1

def packedVersion : UInt32 := apiMajor <<< 8 ||| apiMinor

/-- Records that a caller keeps: handed over by a dynamic decode, or slots of their own. -/
inductive Output where
  | region (instructions : Instructions)
  | slots (insns : List Insn)

namespace Output

def insns : Output → List Insn
  | region instructions => instructions.insns
  | slots insns => insns

def grants : Output → List Grant
  | region instructions => instructions.grants
  | slots insns => Insn.allGrants insns

def drop (output : Output) (host : Host) : Host := Grant.releaseAll output.grants host

end Output

structure Engine where
  host : Host
  /-- What the process-wide registry holds; as long as it is empty, the system stands in. -/
  installed : Option ProviderId := none
  registries : Named (Option ProviderId) := {}
  sessions : Named Session := {}
  outputs : Named Output := {}

def systemProvider : ProviderId := 0

/-- Where a session gets its memory from. -/
inductive Source where
  | provider (id : ProviderId)
  | global
  | registry (name : String)

inductive Target where
  | family (arch : Arch) (mode : Mode) (decoder : Arch → Decoder)
  | config (config : SessionConfig) (decoder : Arch → Decoder)
  | raw (arch mode : UInt32) (decoder : Arch → Decoder)
  | toy
  | rules (arch : Arch) (mode : Mode) (family : RuleFamily)

inductive Query where
  | inGroup (group : UInt32)
  | readsReg (reg : UInt32)
  | writesReg (reg : UInt32)
  | opCount (kind : OperandKind)
  | opIndex (kind : OperandKind) (nth : Nat)

inductive Op where
  | openSession (session : String) (source : Source) (target : Target)
  /-- Gives a session's family another decoder to ask. -/
  | consult (session : String) (decoder : Arch → Decoder)
  | install (registry : String) (provider : ProviderId)
  | registry (registry : String)
  | option (session : Option String) (opt : Opt ProviderId)
  | errno (session : Option String)
  | close (session : Option String)
  | dropSession (session : Option String)
  | state (session : Option String)
  | disasm (session : Option String) (out : String) (code : List UInt8) (address : UInt64)
      (slots : Nat) (reuse : Bool)
  /-- Decodes into some of the slots kept under a name, `count` of them from `start` on. -/
  | disasmWithin (session : Option String) (out : String) (code : List UInt8) (address : UInt64)
      (start count : Nat)
  | disasmAll (session : Option String) (out : String) (code : List UInt8) (address : UInt64)
      (count : Nat)
  | free (out : String)
  /-- Puts a blank record into a slot. -/
  | overwrite (out : String) (index : Nat) (address : UInt64) (size : UInt16)
  /-- Takes a slot away. -/
  | discard (out : String) (index : Nat)
  | records (out : String)
  | format (out : String) (format : Format) (base : UInt64)
  | query (session : Option String) (out : String) (index : Nat) (query : Query)
  | insnQuery (out : String) (index : Nat) (query : Query)
  | regName (session : Option String) (reg : UInt32)
  | insnName (session : Option String) (id : UInt32)
  | tableName (session : Option String) (reg : UInt32)

inductive Answer where
  | done
  | refused (error : Error)
  | noSession
  | nothing
  | flag (b : Bool)
  | number (n : Int)
  | position (index : Option Nat)
  | session (session : Session)
  | registry (configured : Bool) (current : Except Error Unit)
  | error (error : Option Error)
  | filled (count : Nat) (slots : List Insn)
  | handedOver (instructions : Instructions)
  | freed (output : Output)
  | records (insns : List Insn)
  | text (text : String)
  | name (name : Option String)

namespace Engine

def start (providers : List Provider) : Engine := { host := { providers := .system :: providers } }

def session? (engine : Engine) (name : Option String) : Option Session :=
  name.bind engine.sessions.find?

def current (engine : Engine) (registry : String) : Except Error ProviderId :=
  match (engine.registries.find? registry).join with
  | some provider => .ok provider
  | none => .error .memoryNotConfigured

def resolve (engine : Engine) : Source → Except Error ProviderId
  | .provider id => .ok id
  | .global => .ok (engine.installed.getD systemProvider)
  | .registry name => engine.current name

/-- Opens a family by number; an unknown family is reported before an unknown mode. -/
def openRaw (arch mode : UInt32) (decoder : Arch → Decoder) (host : Host)
    (provider : Except Error ProviderId) : Except Error Session × Host :=
  match Arch.ofCode? arch, Mode.ofBits? mode, provider with
  | none, _, _ => (.error .unsupportedArch, host)
  | _, none, _ => (.error .invalidMode, host)
  | _, _, .error error => (.error error, host)
  | some arch, some mode, .ok provider => Session.openWith arch mode (decoder arch) host provider

def openTarget (host : Host) (provider : Except Error ProviderId) (target : Target) :
    Except Error Session × Host :=
  match target, provider with
  | .raw arch mode decoder, provider => openRaw arch mode decoder host provider
  | _, .error error => (.error error, host)
  | .family arch mode decoder, .ok provider =>
    Session.openWith arch mode (decoder arch) host provider
  | .config config decoder, .ok provider =>
    Session.ofConfig config (decoder config.arch) host provider
  | .toy, .ok provider =>
    Session.assemble .x86 .mode32 host provider fun host _ => (.ok { backend := Toy.backend }, host)
  | .rules arch mode family, .ok provider =>
    Session.assemble arch mode host provider family.wire

def putSession (engine : Engine) (name : String) (session : Session) : Engine :=
  -- A session that had the name is dropped.
  let host := match engine.sessions.find? name with
    | some old => old.drop engine.host
    | none => engine.host
  { engine with host, sessions := engine.sessions.insert name session }

def dropOutput (engine : Engine) (out : String) : Engine :=
  match engine.outputs.find? out with
  | some output =>
    { engine with host := output.drop engine.host, outputs := engine.outputs.erase out }
  | none => engine

def endSession (engine : Engine) (name : Option String) (finish : Session → Host → Host) :
    Option Engine :=
  match name, engine.session? name with
  | some name, some session =>
    some { engine with
      host := finish session engine.host, sessions := engine.sessions.erase name }
  | _, _ => none

/-- Applies an option. Only a provider can be installed without a session. -/
def applyOption (engine : Engine) (name : Option String) (opt : Opt ProviderId) :
    Answer × Engine :=
  match opt, name, engine.session? name with
  | .memory provider, _, some session =>
    let shown := engine.host.provider provider
    (.done, { engine with
      host := engine.host.note (.option session.arch (.memory shown))
      installed := some provider })
  | .memory provider, _, none => (.done, { engine with installed := some provider })
  | .detail on, some name, some session =>
    let (session, host) := session.setDetail on engine.host
    (.done, { engine with host, sessions := engine.sessions.insert name session })
  | .dialect dialect, some name, some session =>
    let (answer, session, host) := session.setDialect dialect engine.host
    let answer := match answer with
      | .ok _ => .done
      | .error error => .refused error
    (answer, { engine with host, sessions := engine.sessions.insert name session })
  | _, _, _ => (.refused .invalidHandle, engine)

/-- Fixed decode into slots that lie between others. All of them are what is under the name then. -/
def decodeInto (engine : Engine) (name : String) (session : Session) (out : String)
    (code : List UInt8) (address : UInt64) (before slots after : List Insn) : Answer × Engine :=
  let (filled, session, host) := session.disasm engine.host code address slots
  (.filled filled.produced.length filled.slots,
    { engine with
      host
      sessions := engine.sessions.insert name session
      outputs := engine.outputs.insert out (.slots (before ++ filled.slots ++ after)) })

/-- The slots that a fixed decode writes to, and the engine that it finds: those kept under the
name, or new ones once the result there is dropped. -/
def slotsFor (engine : Engine) (out : String) (slots : Nat) (reuse : Bool) : Engine × List Insn :=
  match reuse, engine.outputs.find? out with
  | true, some (.slots insns) => (engine, insns)
  | _, _ => (engine.dropOutput out, List.replicate slots {})

def runDisasm (engine : Engine) (name : String) (session : Session) (out : String)
    (code : List UInt8) (address : UInt64) (slots : Nat) (reuse : Bool) : Answer × Engine :=
  let found := engine.slotsFor out slots reuse
  found.1.decodeInto name session out code address [] found.2 []

def slotsWithin (insns : List Insn) (start count : Nat) : List Insn :=
  (insns.drop start).take count

def runDisasmWithin (engine : Engine) (name : String) (session : Session) (out : String)
    (code : List UInt8) (address : UInt64) (start count : Nat) : Answer × Engine :=
  match engine.outputs.find? out with
  | some (.slots insns) =>
    engine.decodeInto name session out code address (insns.take start)
      (slotsWithin insns start count) (insns.drop (start + count))
  | _ => (.nothing, engine)

/-- Puts some records in the place of one slot, whose own record is dropped. Records that a dynamic
decode handed over cannot be written to. -/
def replaceSlot (engine : Engine) (out : String) (index : Nat) (put : List Insn) :
    Answer × Engine :=
  match engine.outputs.find? out with
  | some (.slots insns) =>
    match insns[index]? with
    | some old =>
      (.flag true,
        { engine with
          host := Grant.releaseAll old.grants engine.host
          outputs := engine.outputs.insert out
            (.slots (insns.take index ++ put ++ insns.drop (index + 1))) })
    | none => (.flag false, engine)
  | _ => (.nothing, engine)

def runDisasmAll (engine : Engine) (name : String) (session : Session) (out : String)
    (code : List UInt8) (address : UInt64) (count : Nat) : Answer × Engine :=
  let (result, session, host) := session.disasmAll engine.host code address count
  let engine := { engine with host, sessions := engine.sessions.insert name session }
  match result with
  | .error error => (.refused error, engine)
  | .ok instructions =>
    -- The result that had the name is dropped only now.
    let engine := engine.dropOutput out
    (.handedOver instructions,
      { engine with outputs := engine.outputs.insert out (.region instructions) })

/-- A session's answer to a question; its own errors read as no or as `-1`. -/
def askSession (session : Session) (insn : Insn) : Query → Answer × Session
  | .inGroup group => (session.insnGroup insn group).map .flag id
  | .readsReg reg => (session.regRead insn reg).map .flag id
  | .writesReg reg => (session.regWrite insn reg).map .flag id
  | .opCount kind => (session.opCount insn kind).map .number id
  | .opIndex kind nth => (session.opIndex insn kind nth).map .number id

def outcome (answer : α → Answer) : Except Error α → Answer
  | .ok value => answer value
  | .error error => .refused error

def askInsn (insn : Insn) : Query → Answer
  | .inGroup group => outcome .flag (insn.inGroup group)
  | .readsReg reg => outcome .flag (insn.readsReg reg)
  | .writesReg reg => outcome .flag (insn.writesReg reg)
  | .opCount kind => outcome (.number ·) (insn.opCount kind)
  | .opIndex kind nth => outcome .position (insn.opIndex kind nth)

def insn? (engine : Engine) (out : String) (index : Nat) : Option Insn :=
  (engine.outputs.find? out).bind fun output => output.insns[index]?

def errno (engine : Engine) (name : Option String) : Option Error :=
  match engine.session? name with
  | some session => session.lastError
  | none => some .invalidHandle

def withSession (engine : Engine) (name : Option String)
    (act : String → Session → Answer × Engine) : Answer × Engine :=
  match name, engine.session? name with
  | some name, some session => act name session
  | _, _ => (.noSession, engine)

def step (engine : Engine) : Op → Answer × Engine
  | .openSession name source target =>
    match openTarget engine.host (engine.resolve source) target with
    | (.error error, host) => (.refused error, { engine with host })
    | (.ok session, host) => (.session session, { engine with host }.putSession name session)
  | .consult name decoder =>
    match engine.sessions.find? name with
    | some session =>
      let backend := session.arch.backend (decoder session.arch)
      (.done, { engine with sessions := engine.sessions.insert name { session with backend } })
    | none => (.noSession, engine)
  | .install registry provider =>
    (.flag true, { engine with registries := engine.registries.insert registry (some provider) })
  | .registry registry =>
    let current := engine.current registry
    (.registry current.isOk (current.map fun _ => ()), engine)
  | .option name opt => engine.applyOption name opt
  | .errno name => (.error (engine.errno name), engine)
  | .close name =>
    match engine.endSession name Session.close with
    | some engine => (.done, engine)
    | none => (.refused .invalidHandle, engine)
  | .dropSession name =>
    match engine.endSession name Session.drop with
    | some engine => (.flag true, engine)
    | none => (.flag false, engine)
  | .state name => engine.withSession name fun _ session => (.session session, engine)
  | .disasm name out code address slots reuse =>
    engine.withSession name fun name session =>
      engine.runDisasm name session out code address slots reuse
  | .disasmWithin name out code address start count =>
    engine.withSession name fun name session =>
      engine.runDisasmWithin name session out code address start count
  | .disasmAll name out code address count =>
    engine.withSession name fun name session =>
      engine.runDisasmAll name session out code address count
  | .free out =>
    match engine.outputs.find? out with
    | some output => (.freed output, engine.dropOutput out)
    | none => (.nothing, engine)
  | .overwrite out index address size => engine.replaceSlot out index [.blank address size]
  | .discard out index => engine.replaceSlot out index []
  | .records out =>
    match engine.outputs.find? out with
    | some output => (.records output.insns, engine)
    | none => (.nothing, engine)
  | .format out format base =>
    let insns := ((engine.outputs.find? out).map Output.insns).getD []
    (.text (format.render insns base), engine)
  | .query name out index query =>
    engine.withSession name fun name session =>
      match engine.insn? out index with
      | none => (.nothing, engine)
      | some insn =>
        let (answer, session) := askSession session insn query
        (answer, { engine with sessions := engine.sessions.insert name session })
  | .insnQuery out index query =>
    match engine.insn? out index with
    | none => (.nothing, engine)
    | some insn => (askInsn insn query, engine)
  | .regName name reg =>
    engine.withSession name fun _ session => (.name (session.regName reg), engine)
  | .insnName name id =>
    engine.withSession name fun _ session => (.name (session.insnName id), engine)
  | .tableName name reg =>
    engine.withSession name fun _ session =>
      (.name (session.registerTable.bind (·.get? reg)), engine)

def run (engine : Engine) (ops : List Op) : Engine :=
  ops.foldl (fun engine op => (engine.step op).2) engine

def grants (engine : Engine) : List Grant :=
  engine.outputs.values.flatMap Output.grants ++ engine.sessions.values.flatMap Session.grants

def shutdown (engine : Engine) : Engine :=
  { engine with
    host := Grant.releaseAll engine.grants engine.host, sessions := {}, outputs := {} }

end Engine

end Disassembly
