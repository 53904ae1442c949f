import Disassembly.Proofs.Engine.Sessions
/-!
# The register table answers as the collaborator would

A family that keeps a register table has all names in it from the opening of the session on. A name
is looked for there first, and the collaborator is asked where the table has none. As long as the
collaborator names registers as it did when the table was made, the table makes no difference.
-/
namespace Disassembly

namespace RegisterTable

/-- A table knows the names that were collected and no register beyond them. -/
theorem get?_collect (name : UInt32 → Option String) (count : Nat) (reg : UInt32) :
    (collect name count).get? reg = if reg.toNat < count then name reg else none := by
  have hreg : reg.toNat.toUInt32 = reg := UInt32.ofNat_toNat
  rw [get?, collect, List.getElem?_map]
  by_cases hlt : reg.toNat < count
  · rw [if_pos hlt, List.getElem?_range hlt, Option.map_some, hreg]
    rfl
  · rw [if_neg hlt, List.getElem?_eq_none (by simpa using hlt)]
    rfl

end RegisterTable

def Backend.table (backend : Backend) : RegisterTable :=
  .collect (backend.regName .default) RegisterTable.slots

namespace Capabilities

variable {backend : Backend} {host host' : Host} {id : ProviderId} {capabilities : Capabilities}

structure Tabled (backend : Backend) (capabilities : Capabilities) : Prop where
  collaborator : capabilities.backend = backend
  table : capabilities.sideTable.map Payload.value = some backend.table

theorem tabled_of_assemble
    (h : assemble backend true host id = (.ok capabilities, host')) :
    Tabled backend capabilities := by
  rw [assemble, if_pos rfl] at h
  split at h
  · next htable =>
    obtain ⟨rfl, -⟩ := Payload.allocate_ok htable
    cases h
    refine ⟨rfl, ?_⟩
    rw [Option.map_some, Backend.table, Payload.paid]
  · cases h

theorem tabled_of_wire {arch : Arch} (htable : arch.keepsTable = true) {mode : Mode}
    {decoder : Decoder} (h : arch.wire mode decoder host id = (.ok capabilities, host')) :
    Tabled (arch.backend decoder) capabilities := by
  rw [Arch.wire] at h
  split at h
  · cases h
  · rw [htable] at h
    split at h
    · next hassemble =>
      cases h
      exact tabled_of_assemble hassemble
    · cases h

theorem tabled_of_wire_rules {family : RuleFamily} (htable : family.keepsTable = true)
    (h : family.wire host id = (.ok capabilities, host')) : Tabled family.backend capabilities := by
  rw [RuleFamily.wire, htable] at h
  split at h
  · cases h
  · exact tabled_of_assemble h

end Capabilities

namespace Session

open Capabilities (Tabled)

/-- What a call can make of a session. -/
inductive Called (session : Session) : Session → Prop where
  | setDetail (on : Bool) (host : Host) : Called session (session.setDetail on host).1
  | setDialect (dialect : Dialect) (host : Host) :
      Called session (session.setDialect dialect host).2.1
  | disasm (host : Host) (code : List UInt8) (address : UInt64) (slots : List Insn) :
      Called session (session.disasm host code address slots).2.1
  | disasmAll (host : Host) (code : List UInt8) (address : UInt64) (count : Nat) :
      Called session (session.disasmAll host code address count).2.1
  | query (insn : Insn) (query : Query) : Called session (Engine.askSession session insn query).2

/-- A session of a family that keeps a table, from its opening on. -/
inductive InUse : Backend → Session → Prop where
  | family {arch : Arch} {mode : Mode} {decoder : Decoder} {host host' : Host} {id : ProviderId}
      {session : Session} : arch.keepsTable = true →
      openWith arch mode decoder host id = (.ok session, host') →
      InUse (arch.backend decoder) session
  | rules {arch : Arch} {mode : Mode} {family : RuleFamily} {host host' : Host}
      {id : ProviderId} {session : Session} : family.keepsTable = true →
      assemble arch mode host id family.wire = (.ok session, host') →
      InUse family.backend session
  | called {backend : Backend} {session session' : Session} : InUse backend session →
      Called session session' → InUse backend session'

variable {backend : Backend} {session session' : Session} {host host' : Host}

structure Serves (backend : Backend) (session : Session) : Prop where
  collaborator : session.backend = backend
  table : session.registerTable = some backend.table

theorem serves_of_assemble {arch : Arch} {mode : Mode} {id : ProviderId}
    {wire : Host → ProviderId → Except Error Capabilities × Host}
    (hwire : ∀ host capabilities host', wire host id = (.ok capabilities, host') →
      Tabled backend capabilities)
    (h : assemble arch mode host id wire = (.ok session, host')) : Serves backend session := by
  rw [assemble] at h
  split at h
  · cases h
  · split at h
    · cases h
    · next hready =>
      cases h
      obtain ⟨hbackend, htable⟩ := hwire _ _ _ hready
      exact ⟨hbackend, htable⟩

/-- No call changes them. -/
theorem Serves.called (h : Serves backend session) (hcall : Called session session') :
    Serves backend session' := by
  cases hcall with
  | setDetail on host => exact ⟨h.collaborator, h.table⟩
  | setDialect dialect host =>
    by_cases haccepts : session.backend.accepts dialect = true
    · rw [setDialect_of_accepts haccepts]
      exact ⟨h.collaborator, h.table⟩
    · rw [setDialect_of_refuses haccepts]
      exact ⟨h.collaborator, h.table⟩
  | disasm host code address slots => exact ⟨h.collaborator, h.table⟩
  | disasmAll host code address count =>
    rw [disasmAll]
    split <;> exact ⟨h.collaborator, h.table⟩
  | query insn query =>
    rw [snd_askSession]
    exact ⟨h.collaborator, h.table⟩

theorem InUse.serves (h : InUse backend session) : Serves backend session := by
  induction h with
  | family htable hopen =>
    exact serves_of_assemble (fun _ _ _ => Capabilities.tabled_of_wire htable) hopen
  | rules htable hopen =>
    exact serves_of_assemble (fun _ _ _ => Capabilities.tabled_of_wire_rules htable) hopen
  | called _ hcall ih => exact ih.called hcall

theorem Serves.regName_eq (h : Serves backend session) (reg : UInt32) :
    session.regName reg =
      ((if reg.toNat < 512 then backend.regName .default reg else none).or
        (backend.regName session.dialect reg)) := by
  rw [regName, h.table, h.collaborator, Option.bind_some, Backend.table, RegisterTable.get?_collect,
    RegisterTable.slots]
  split <;> next hfound => rw [hfound]; rfl

/-- Beyond 16 bits no family of the decoder has a name, whatever the decoder would say. -/
theorem regName_backend_of_lt (arch : Arch) (decoder : Decoder) (dialect : Dialect) {reg : UInt32}
    (h : 65535 < reg.toNat) : (arch.backend decoder).regName dialect reg = none := by
  have hname : (arch.backend decoder).regName = Arch.regName decoder := by
    rw [Arch.backend]
    split <;> rfl
  have hword : ¬ reg.toNat < UInt16.size := by
    simp only [UInt16.size]
    omega
  rw [hname, Arch.regName, if_neg hword]

/-- The table has 512 slots, which hold what the collaborator says of the registers below. Through
it a session names a register as the collaborator does in the dialect in force, unless that has
another name than the default one for a register below 512. A register beyond 16 bits has no name. -/
theorem regName_transparent (h : InUse backend session) :
    (∃ table, session.registerTable = some table ∧ table.size = 512 ∧
      ∀ reg, table.get? reg = if reg.toNat < 512 then backend.regName .default reg else none) ∧
    (∀ reg, (reg.toNat < 512 →
        backend.regName session.dialect reg = backend.regName .default reg) →
      session.regName reg = session.backend.regName session.dialect reg) ∧
    ∀ (arch : Arch) (decoder : Decoder), backend = arch.backend decoder →
      ∀ reg : UInt32, 65535 < reg.toNat → session.regName reg = none := by
  have hserves := h.serves
  refine ⟨⟨backend.table, hserves.table, ?_, ?_⟩, ?_, ?_⟩
  · exact RegisterTable.size_collect _ _
  · exact RegisterTable.get?_collect _ _
  · intro reg hsteady
    rw [hserves.regName_eq, hserves.collaborator]
    by_cases hlt : reg.toNat < 512
    · rw [if_pos hlt, hsteady hlt, Option.or_self]
    · rw [if_neg hlt, Option.none_or]
  · rintro arch decoder rfl reg hreg
    rw [hserves.regName_eq, if_neg (by omega), Option.none_or,
      regName_backend_of_lt arch decoder _ hreg]

/-- A register in the table, one that has no name, one beyond the table, and one whose last 16 bits
are the number of another, in a session with detail on. -/
theorem regName_transparent_arm64 :
    let decoder : Decoder :=
      { Decoder.silent with
        regName := fun _ reg => [(3, "x3"), (4, "x4"), (600, "v0")].lookup reg }
    ∃ session host, openWith .arm64 .empty decoder {} 0 = (.ok session, host) ∧
      InUse (Arch.arm64.backend decoder) (session.setDetail true host).1 ∧
      [3, 5, 600, 65540].map (session.setDetail true host).1.regName =
        [some "x3", none, some "v0", none] := by
  intro decoder
  have hopens : (openWith .arm64 .empty decoder {} 0).1.isOk = true := by decide +kernel
  have hasked : [3, 5, 600, 65540].map ((Arch.arm64.backend decoder).regName .default) =
      [some "x3", none, some "v0", none] := by
    decide +kernel
  cases hopen : openWith .arm64 .empty decoder {} 0 with
  | mk result host =>
    rw [hopen] at hopens
    cases result with
    | error error => cases hopens
    | ok session =>
      have huse : InUse (Arch.arm64.backend decoder) (session.setDetail true host).1 :=
        .called (.family rfl hopen) (.setDetail true host)
      refine ⟨session, host, rfl, huse, ?_⟩
      obtain ⟨-, hnames, -⟩ := regName_transparent huse
      rw [List.map_congr_left fun reg _ => hnames reg fun _ => rfl, huse.serves.collaborator]
      exact hasked

end Session

end Disassembly
