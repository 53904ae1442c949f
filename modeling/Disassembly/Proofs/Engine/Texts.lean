import Disassembly.Proofs.Decode.Texts
import Disassembly.Proofs.Engine.Sessions
/-!
# Texts of the records that there are

Whatever the engine was asked to do, the records in its slots and its results are such as come about
by writing their texts. So all these texts can be read, and reading and writing them once more
changes nothing.
-/
namespace Disassembly

open Insn (AllArise)

theorem Session.Opened.keepsTexts {id : ProviderId} {backend : Backend} {session : Session}
    {host host' : Host} (h : Opened id host backend (.ok session, host'))
    (hbackend : backend.KeepsTexts) : session.backend.KeepsTexts := by
  cases h with
  | opened heq => rwa [heq]

namespace Engine

variable {engine engine' : Engine} {name : String} {session : Session} {host : Host}

structure Texted (engine : Engine) : Prop where
  sessions : engine.sessions.Each (·.backend.KeepsTexts)
  outputs : engine.outputs.Each (AllArise ·.insns)

theorem texted_start (providers : List Provider) : (start providers).Texted :=
  ⟨Named.each_empty _, Named.each_empty _⟩

theorem Texted.dropOutput (h : engine.Texted) (out : String) : (engine.dropOutput out).Texted := by
  rw [Engine.dropOutput]
  split
  · exact ⟨h.sessions, h.outputs.erase⟩
  · exact h

theorem keepsTexts_of_openTarget {provider : Except Error ProviderId} {target : Target}
    {host' : Host} (h : openTarget host provider target = (.ok session, host')) :
    session.backend.KeepsTexts := by
  have hfamily : ∀ (arch : Arch) (mode : Mode) (decoder : Decoder) (id : ProviderId),
      Session.openWith arch mode decoder host id = (.ok session, host') →
        session.backend.KeepsTexts := by
    intro arch mode decoder id hopen
    have hopened := Session.openWith_opened arch mode decoder host id
    rw [hopen] at hopened
    exact hopened.keepsTexts (arch.keepsTexts_backend decoder)
  unfold openTarget at h
  split at h
  · unfold openRaw at h
    split at h
    · cases h
    · cases h
    · cases h
    · exact hfamily _ _ _ _ h
  · cases h
  · exact hfamily _ _ _ _ h
  · next config decoder id =>
    have hopened := Session.ofConfig_opened config (decoder config.arch) host id
    rw [h] at hopened
    exact hopened.keepsTexts (config.arch.keepsTexts_backend _)
  · next id =>
    have hopened : Session.Opened id host Toy.backend (.ok session, host') := by
      rw [← h]
      exact Session.assemble_opened fun host => .ready (fun table h => by cases h) (.refl host [])
    exact hopened.keepsTexts Toy.keepsTexts_backend
  · next arch mode family id =>
    have hopened : Session.Opened id host family.backend (.ok session, host') := by
      rw [← h]
      exact Session.assemble_opened fun host => Capabilities.wire_rules_wired family host id
    exact hopened.keepsTexts family.keepsTexts_backend

theorem Texted.decodeInto (h : engine.Texted) (hfind : engine.sessions.find? name = some session)
    (out : String) (code : List UInt8) (address : UInt64) {before slots after : List Insn}
    (hinsns : AllArise (before ++ slots ++ after)) :
    (engine.decodeInto name session out code address before slots after).2.Texted := by
  have hsession := h.sessions name session hfind
  have hslots : AllArise slots := fun insn hmem => hinsns insn (by simp [hmem])
  have hfilled := Session.allArise_fill hsession hslots engine.host code address
  exact ⟨h.sessions.insert hsession, h.outputs.insert (Insn.forall_between hinsns hfilled)⟩

theorem Texted.runDisasm (h : engine.Texted) (hfind : engine.sessions.find? name = some session)
    (out : String) (code : List UInt8) (address : UInt64) (slots : Nat) (reuse : Bool) :
    (engine.runDisasm name session out code address slots reuse).2.Texted := by
  have hfound : (engine.slotsFor out slots reuse).1.Texted ∧
      AllArise ([] ++ (engine.slotsFor out slots reuse).2 ++ []) := by
    rw [List.nil_append, List.append_nil]
    unfold slotsFor
    split
    · next insns hkept => exact ⟨h, h.outputs out _ hkept⟩
    · refine ⟨h.dropOutput out, ?_⟩
      intro insn hmem
      rw [(List.mem_replicate.1 hmem).2]
      exact .blank 0 0
  have hsession : (engine.slotsFor out slots reuse).1.sessions.find? name = some session := by
    rw [sessions_slotsFor, hfind]
  exact hfound.1.decodeInto hsession out code address hfound.2

theorem Texted.runDisasmWithin (h : engine.Texted)
    (hfind : engine.sessions.find? name = some session) (out : String) (code : List UInt8)
    (address : UInt64) (start count : Nat) :
    (engine.runDisasmWithin name session out code address start count).2.Texted := by
  unfold Engine.runDisasmWithin
  split
  · next insns hkept =>
    have hinsns : AllArise insns := h.outputs out _ hkept
    rw [← take_slotsWithin_drop insns start count] at hinsns
    exact h.decodeInto hfind out code address hinsns
  · exact h

theorem Texted.replaceSlot (h : engine.Texted) (out : String) (index : Nat) {put : List Insn}
    (hput : AllArise put) : (engine.replaceSlot out index put).2.Texted := by
  unfold Engine.replaceSlot
  split
  · next insns hkept =>
    have hinsns : AllArise insns := h.outputs out _ hkept
    split
    · next old hold =>
      rw [eq_between_of_getElem? hold] at hinsns
      exact ⟨h.sessions, h.outputs.insert (Insn.forall_between hinsns hput)⟩
    · exact h
  · exact h

theorem Texted.runDisasmAll (h : engine.Texted)
    (hfind : engine.sessions.find? name = some session) (out : String) (code : List UInt8)
    (address : UInt64) (count : Nat) :
    (engine.runDisasmAll name session out code address count).2.Texted := by
  have hsession := h.sessions name session hfind
  cases hcollect : session.collect engine.host code address count with
  | mk result host =>
    cases result with
    | error error =>
      rw [runDisasmAll_of_error hcollect]
      exact ⟨h.sessions.insert hsession, h.outputs⟩
    | ok instructions =>
      rw [runDisasmAll_of_ok hcollect]
      have hcollected := Session.allArise_collect hsession hcollect
      have hchanged : { engine with
          host, sessions := engine.sessions.insert name { session with lastError := none } }.Texted :=
        ⟨h.sessions.insert hsession, h.outputs⟩
      have hdropped := hchanged.dropOutput out
      exact ⟨hdropped.sessions, hdropped.outputs.insert hcollected⟩

theorem Texted.applyOption (h : engine.Texted) (name : Option String) (opt : Opt ProviderId) :
    (engine.applyOption name opt).2.Texted := by
  unfold Engine.applyOption
  split
  · exact ⟨h.sessions, h.outputs⟩
  · exact ⟨h.sessions, h.outputs⟩
  · next on name session hfind =>
    exact ⟨h.sessions.insert (h.sessions name session hfind), h.outputs⟩
  · next dialect name session hfind =>
    have hsession := h.sessions name session hfind
    by_cases haccepts : session.backend.accepts dialect = true
    · rw [Session.setDialect_of_accepts haccepts]
      exact ⟨h.sessions.insert hsession, h.outputs⟩
    · rw [Session.setDialect_of_refuses haccepts]
      exact ⟨h.sessions.insert hsession, h.outputs⟩
  · exact h

theorem Texted.endSession (h : engine.Texted) {name : Option String}
    {finish : Session → Host → Host} (hend : engine.endSession name finish = some engine') :
    engine'.Texted := by
  unfold Engine.endSession at hend
  split at hend
  · cases hend
    exact ⟨h.sessions.erase, h.outputs⟩
  · cases hend

theorem Texted.withSession (h : engine.Texted) (name : Option String)
    {act : String → Session → Answer × Engine}
    (hact : ∀ name session, engine.sessions.find? name = some session →
      (act name session).2.Texted) : (engine.withSession name act).2.Texted := by
  unfold Engine.withSession
  split
  · next name session hfind => exact hact name session hfind
  · exact h

/-- No operation puts a record there whose texts were not written. -/
theorem Texted.step (h : engine.Texted) (op : Op) : (engine.step op).2.Texted := by
  cases op with
  | openSession name source target =>
    rcases engine.step_openSession name source target with ⟨session, host, hopen, hstep⟩ |
      ⟨error, host, -, hstep⟩
    · rw [hstep]
      exact ⟨h.sessions.insert (keepsTexts_of_openTarget hopen), h.outputs⟩
    · rw [hstep]
      exact ⟨h.sessions, h.outputs⟩
  | consult name decoder =>
    unfold Engine.step
    dsimp only
    split
    · next session hfind =>
      exact ⟨h.sessions.insert (session.arch.keepsTexts_backend _), h.outputs⟩
    · exact h
  | option name opt => exact h.applyOption name opt
  | close name =>
    unfold Engine.step
    dsimp only
    split
    · next hend => exact h.endSession hend
    · exact h
  | dropSession name =>
    unfold Engine.step
    dsimp only
    split
    · next hend => exact h.endSession hend
    · exact h
  | disasm name out code address slots reuse =>
    exact h.withSession name fun name session hfind =>
      h.runDisasm hfind out code address slots reuse
  | disasmWithin name out code address start count =>
    exact h.withSession name fun name session hfind =>
      h.runDisasmWithin hfind out code address start count
  | disasmAll name out code address count =>
    exact h.withSession name fun name session hfind =>
      h.runDisasmAll hfind out code address count
  | overwrite out index address size =>
    apply h.replaceSlot out index
    intro insn hmem
    rw [List.mem_singleton.1 hmem]
    exact .blank address size
  | discard out index => exact h.replaceSlot out index fun _ hmem => absurd hmem List.not_mem_nil
  | free out =>
    unfold Engine.step
    dsimp only
    split
    · exact h.dropOutput out
    · exact h
  | query name out index query =>
    apply h.withSession name
    intro name session hfind
    dsimp only
    split
    · exact h
    · next insn _ =>
      rw [Session.snd_askSession]
      exact ⟨h.sessions.insert (h.sessions name session hfind), h.outputs⟩
  | state name | regName name | insnName name | tableName name =>
    exact h.withSession name fun _ _ _ => h
  | records out | insnQuery out =>
    unfold Engine.step
    dsimp only
    split <;> exact h
  | install registry provider => exact ⟨h.sessions, h.outputs⟩
  | registry registry | errno name | format out format base => exact h

theorem Texted.run (h : engine.Texted) (ops : List Op) : (engine.run ops).Texted := by
  induction ops generalizing engine with
  | nil => exact h
  | cons op ops ih => exact ih (h.step op)

end Engine

namespace Insn

/-- A text field holds the longest part of its text that fits and zeros behind it, whatever it held
before, and what is read from it is that part up to its first zero. The texts of a record that comes
about by writing can always be read, and writing back what was read makes no difference to the
reading. All records that the engine has at any time come about so. -/
theorem texts_exact :
    (∀ (insn : Insn) (text : String),
      (∃ kept, (insn.setMnemonic text).mnemonic.Stores text kept) ∧
      (∃ kept, (insn.setOpStr text).opStr.Stores text kept) ∧
      insn.mnemonic.writeOver? text = some (insn.setMnemonic text).mnemonic.bytes ∧
      insn.opStr.writeOver? text = some (insn.setOpStr text).opStr.bytes) ∧
    (∀ insn : Insn, insn.Arises →
      insn.mnemonic.Readable ∧ insn.opStr.Readable ∧
      (insn.setMnemonic insn.mnemonic.text).mnemonic.text = insn.mnemonic.text ∧
      (insn.setOpStr insn.opStr.text).opStr.text = insn.opStr.text) ∧
    ∀ (providers : List Provider) (ops : List Op) (out : String) (output : Output),
      ((Engine.start providers).run ops).outputs.find? out = some output →
      ∀ insn ∈ output.insns, insn.Arises := by
  have hmnemonic : 0 < mnemonicLen := by decide
  have hopStr : 0 < opStrLen := by decide
  refine ⟨?_, ?_, ?_⟩
  · intro insn text
    exact ⟨⟨_, Field.stores_ofText hmnemonic text⟩, ⟨_, Field.stores_ofText hopStr text⟩,
      insn.mnemonic.writeOver?_eq text, insn.opStr.writeOver?_eq text⟩
  · intro insn h
    obtain ⟨hwritten, hwritten'⟩ := h.written
    exact ⟨hwritten.readable, hwritten'.readable, hwritten.text_ofText_text hmnemonic,
      hwritten'.text_ofText_text hopStr⟩
  · intro providers ops out output hfind
    exact ((Engine.texted_start providers).run ops).outputs out output hfind

/-- A prefix and the record behind it, which are one record whose mnemonic was put together from
what was read. -/
theorem texts_exact_fused :
    let ops : List Op := [.openSession "s" (.provider 0) .toy,
      .disasmAll (some "s") "o" [0xf0, 0x0f, 0x01, 0x02] 0 0]
    ∃ output, ((Engine.start []).run ops).outputs.find? "o" = some output ∧
      output.insns.map (fun insn => (insn.mnemonic.text, insn.opStr.text)) = [("pfx.mov", "r2")] ∧
      ∀ insn ∈ output.insns, insn.Arises ∧ insn.mnemonic.Readable ∧
        (insn.setMnemonic insn.mnemonic.text).mnemonic.text = insn.mnemonic.text := by
  intro ops
  obtain ⟨-, hreadable, harises⟩ := texts_exact
  have htexts : (((Engine.start []).run ops).outputs.find? "o").map (fun output =>
      output.insns.map fun insn => (insn.mnemonic.text, insn.opStr.text)) =
        some [("pfx.mov", "r2")] := by
    decide +kernel
  obtain ⟨output, hfind, houtput⟩ := Option.map_eq_some_iff.1 htexts
  refine ⟨output, hfind, houtput, ?_⟩
  intro insn hmem
  have hinsn := harises [] ops "o" output hfind insn hmem
  obtain ⟨hmnemonic, -, hagain, -⟩ := hreadable insn hinsn
  exact ⟨hinsn, hmnemonic, hagain⟩

end Insn

end Disassembly
