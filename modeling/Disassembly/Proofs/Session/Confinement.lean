import Disassembly.Engine
import Disassembly.Proofs.Decode.Confinement
/-!
# A session keeps to its provider

Opening a session asks one provider, the one that its source means at that moment, and the session
holds blocks of that provider only. From then on all that is decoded with it is asked of that
provider, and all that it held goes back there.
-/
namespace Disassembly

open Grant (AllFrom allFrom_nil allFrom_append)

variable {id : ProviderId}

theorem Capabilities.assemble_draws (backend : Backend) (keepsTable : Bool) (id : ProviderId) :
    Draws id (fun capabilities => (capabilities.sideTable.map Payload.grant).toList)
      fun host => Capabilities.assemble backend keepsTable host id := by
  by_cases hkeeps : keepsTable = true
  · have htable := Payload.allocate_draws id
      (RegisterTable.collect (backend.regName .default) RegisterTable.slots)
    apply htable.elim
    · intro host error host' hrun
      rw [assemble, if_pos hkeeps, hrun]
    · intro host table host' hrun
      rw [assemble, if_pos hkeeps, hrun]
    · exact Draws.error
    · exact fun table htable => Draws.ok htable
  · have hbare : Draws id
        (fun capabilities : Capabilities => (capabilities.sideTable.map Payload.grant).toList)
        fun host => (.ok { backend }, host) := Draws.ok allFrom_nil
    refine hbare.of_eq fun host => ?_
    rw [assemble, if_neg hkeeps]

theorem Arch.wire_draws (arch : Arch) (mode : Mode) (decoder : Decoder) (id : ProviderId) :
    Draws id (fun capabilities => (capabilities.sideTable.map Payload.grant).toList)
      fun host => arch.wire mode decoder host id := by
  cases hmachine : arch.machine? mode with
  | none =>
    refine (Draws.error .invalidMode).of_eq fun host => ?_
    rw [wire, hmachine]
  | some machine =>
    apply (Capabilities.assemble_draws (arch.backend decoder) arch.keepsTable id).elim
    · intro host error host' hrun
      rw [wire, hmachine]
      simp only [hrun]
      rfl
    · intro host capabilities host' hrun
      rw [wire, hmachine]
      simp only [hrun]
      rfl
    · exact Draws.error
    · intro capabilities hfrom
      refine Confined.after_note (Draws.ok ?_) _
      exact hfrom

theorem RuleFamily.wire_draws (family : RuleFamily) (id : ProviderId) :
    Draws id (fun capabilities => (capabilities.sideTable.map Payload.grant).toList)
      fun host => family.wire host id := by
  cases hfailure : family.failure with
  | some error =>
    refine (Draws.error error).of_eq fun host => ?_
    rw [wire, hfailure]
  | none =>
    refine (Capabilities.assemble_draws family.backend family.keepsTable id).of_eq fun host => ?_
    rw [wire, hfailure]

namespace Session

variable {session : Session}

theorem assemble_draws (arch : Arch) (mode : Mode)
    {wire : Host → ProviderId → Except Error Capabilities × Host}
    (hwire : Draws id (fun capabilities => (capabilities.sideTable.map Payload.grant).toList)
      fun host => wire host id) :
    Draws id Session.grants fun host => assemble arch mode host id wire := by
  apply (Grant.zeroed_draws id 1 sessionBytes).elim
  · intro host error host' hrun
    rw [assemble, hrun]
  · intro host grant host' hrun
    rw [assemble, hrun]
  · exact Draws.error
  · intro grant hgrant
    apply hwire.elim
    · intro host error host' hrun
      simp only [hrun]
      rfl
    · intro host capabilities host' hrun
      simp only [hrun]
      rfl
    · intro error
      have hfailed : Draws id Session.grants fun host => (.error error, host) := Draws.error error
      exact hfailed.after_own_release hgrant
    · intro capabilities hfrom
      refine Confined.after_note (Draws.ok ?_) _
      exact allFrom_append.2 ⟨hfrom, hgrant⟩

theorem ofConfig_draws (config : SessionConfig) (decoder : Decoder) (id : ProviderId) :
    Draws id Session.grants fun host => ofConfig config decoder host id := by
  have hopen : Draws id Session.grants fun host =>
      openWith config.arch config.effectiveMode decoder host id :=
    assemble_draws _ _ (config.arch.wire_draws _ decoder id)
  apply hopen.elim
  · intro host error host' hrun
    rw [ofConfig, hrun]
  · intro host session host' hrun
    rw [ofConfig, hrun]
  · exact Draws.error
  · intro session hfrom
    let detailed : Session := { session with detail := config.detail }
    have hnoted := fun {run : Host → Except Error Session × Host}
        (hrun : Draws id Session.grants run) (opt : Opt Provider) =>
      hrun.after_note (.option session.arch opt)
    by_cases hdialect : config.dialect = .default
    · have hdone : Draws id Session.grants fun host => (.ok detailed, host) := Draws.ok hfrom
      refine (hnoted hdone (.detail config.detail)).of_eq fun host => ?_
      simp only [setDetail, if_pos hdialect, detailed]
    · by_cases haccepts : detailed.backend.accepts config.dialect = true
      · have hset := setDialect_of_accepts haccepts
        have hdone : Draws id Session.grants fun host =>
            (.ok { detailed with dialect := config.dialect }, host) := Draws.ok hfrom
        refine (hnoted (hnoted hdone (.dialect config.dialect))
          (.detail config.detail)).of_eq fun host => ?_
        simp only [setDetail, if_neg hdialect, hset, detailed]
      · have hset := setDialect_of_refuses haccepts
        have hended : Draws id Session.grants fun host => (.error .invalidOption, host) :=
          Draws.error _
        refine (hnoted (hnoted (hended.after_own_release hfrom) (.dialect config.dialect))
          (.detail config.detail)).of_eq fun host => ?_
        simp only [setDetail, if_neg hdialect, hset, detailed]
        rfl

theorem openTarget_draws (id : ProviderId) (target : Target) :
    Draws id Session.grants fun host => Engine.openTarget host (.ok id) target := by
  cases target with
  | family arch mode decoder => exact assemble_draws arch mode (arch.wire_draws mode _ id)
  | config config decoder => exact ofConfig_draws config (decoder config.arch) id
  | raw arch mode decoder =>
    cases harch : Arch.ofCode? arch with
    | none =>
      refine (Draws.error .unsupportedArch).of_eq fun host => ?_
      simp only [Engine.openTarget, Engine.openRaw, harch]
    | some known =>
      cases hmode : Mode.ofBits? mode with
      | none =>
        refine (Draws.error .invalidMode).of_eq fun host => ?_
        simp only [Engine.openTarget, Engine.openRaw, harch, hmode]
      | some bits =>
        have hwire := known.wire_draws bits (decoder known) id
        refine (assemble_draws known bits hwire).of_eq fun host => ?_
        simp only [Engine.openTarget, Engine.openRaw, harch, hmode]
        rfl
  | toy =>
    have hbare : Draws id
        (fun capabilities : Capabilities => (capabilities.sideTable.map Payload.grant).toList)
        fun host => (.ok { backend := Toy.backend }, host) := Draws.ok allFrom_nil
    exact @assemble_draws id .x86 .mode32
      (fun host _ => (.ok { backend := Toy.backend }, host)) hbare
  | rules arch mode family => exact assemble_draws arch mode (family.wire_draws id)

theorem openTarget_of_error (cause : Error) (target : Target) :
    ∃ error, ∀ host, Engine.openTarget host (.error cause) target = (.error error, host) := by
  cases target with
  | raw arch mode decoder =>
    cases harch : Arch.ofCode? arch with
    | none => exact ⟨.unsupportedArch, by simp [Engine.openTarget, Engine.openRaw, harch]⟩
    | some known =>
      cases hmode : Mode.ofBits? mode with
      | none => exact ⟨.invalidMode, by simp [Engine.openTarget, Engine.openRaw, harch, hmode]⟩
      | some bits => exact ⟨cause, by simp [Engine.openTarget, Engine.openRaw, harch, hmode]⟩
  | family | config | toy | rules => exact ⟨cause, fun _ => rfl⟩

theorem provider_drop (session : Session) (host : Host) (id : ProviderId) :
    (session.drop host).provider id =
      (host.provider id).giveBack (Grant.blocks id session.grants) :=
  Grant.provider_releaseAll session.grants host id

theorem provider_close (session : Session) (host : Host) (id : ProviderId) :
    (session.close host).provider id =
      (host.provider id).giveBack (Grant.blocks id session.grants) :=
  provider_drop session _ id

/-- Calls on a session concern its provider alone, but for what the slots held that a fixed decode
writes over. -/
structure KeepsTo (session : Session) (id : ProviderId) : Prop where
  holds : AllFrom id session.grants
  disasm : ∀ code address slots,
    Confined id (fun answer => Insn.allGrants (slots.take answer.1.produced.length))
      (fun answer => AllFrom id (Insn.allGrants answer.1.produced)) fun host =>
        let (filled, session, host) := session.disasm host code address slots
        ((filled, session), host)
  disasmAll : ∀ code address count,
    Confined id (fun _ => []) (fun answer => YieldsFrom id Instructions.grants answer.1) fun host =>
      let (result, session, host) := session.disasmAll host code address count
      ((result, session), host)
  close : Confined id (fun _ => []) (fun _ => True) fun host => ((), session.close host)
  drop : Confined id (fun _ => []) (fun _ => True) fun host => ((), session.drop host)

theorem disasm_confined (session : Session) (code : List UInt8) (address : UInt64)
    (slots : List Insn) :
    Confined session.provider (fun answer => Insn.allGrants (slots.take answer.1.produced.length))
      (fun answer => AllFrom session.provider (Insn.allGrants answer.1.produced)) fun host =>
        let (filled, session, host) := session.disasm host code address slots
        ((filled, session), host) :=
  (session.fill_confined code address slots).map
    (fun filled => (filled, { session with lastError := filled.error })) (fun _ => rfl)
    fun _ hfilled => hfilled

theorem disasmAll_confined (session : Session) (code : List UInt8) (address : UInt64)
    (count : Nat) :
    Confined session.provider (fun _ => [])
      (fun answer => YieldsFrom session.provider Instructions.grants answer.1) fun host =>
        let (result, session, host) := session.disasmAll host code address count
        ((result, session), host) := by
  apply (session.collect_draws code address count).elim
  · intro host error host' hrun
    rw [disasmAll, hrun]
  · intro host instructions host' hrun
    rw [disasmAll, hrun]
  · exact fun error => Confined.after_note (.pure rfl trivial) _
  · exact fun instructions hfrom => .pure rfl hfrom

theorem keepsTo_of_allFrom (h : AllFrom session.provider session.grants) :
    session.KeepsTo session.provider := by
  have hdone : Confined session.provider (fun _ => []) (fun _ => True)
      fun host => ((), host) := .pure rfl trivial
  constructor
  · exact h
  · exact session.disasm_confined
  · exact session.disasmAll_confined
  · exact (hdone.after_own_release h).after_note (.closing session.arch)
  · exact hdone.after_own_release h

end Session

end Disassembly
