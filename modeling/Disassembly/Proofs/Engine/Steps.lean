import Disassembly.Proofs.Engine.Moves
/-!
# Every operation is a move

Whatever is asked of a sound engine, and whether it succeeds or not, the engine is sound
afterwards, and its counters have moved by exactly the blocks behind what came to life and what
ended.
-/
namespace Disassembly

namespace Session

variable {session : Session} {host host' : Host}

inductive Entry (host : Host) : Except Error Session × Host → Prop where
  | opened {session : Session} {host' : Host} : session.Sound →
      host.Exchange [] host' session.grants → Entry host (.ok session, host')
  | failed {error : Error} {host' : Host} : host.Exchange [] host' [] →
      Entry host (.error error, host')

theorem Opened.entry {id : ProviderId} {backend : Backend} {result : Except Error Session × Host}
    (h : Opened id host backend result) (hhonest : backend.Honest) : Entry host result := by
  cases h with
  | failed hexchange => exact .failed hexchange
  | @opened session _ hbackend hgrant htable hexchange =>
    have hprovider : session.provider = id := by rw [provider, hgrant]
    refine .opened ⟨hbackend ▸ hhonest, ?_, ?_⟩ hexchange
    · rw [hprovider]
      exact hgrant
    · rw [hprovider]
      exact htable

theorem openWith_entry (arch : Arch) (mode : Mode) (decoder : Decoder) (host : Host)
    (id : ProviderId) : Entry host (openWith arch mode decoder host id) :=
  (openWith_opened arch mode decoder host id).entry (arch.honest_backend decoder)

theorem Sound.of_eq (h : session.Sound) {session' : Session}
    (hbackend : session'.backend = session.backend) (hgrant : session'.grant = session.grant)
    (htable : session'.sideTable = session.sideTable) : session'.Sound := by
  have hprovider : session'.provider = session.provider := by rw [provider, provider, hgrant]
  refine ⟨hbackend ▸ h.backend, ?_, ?_⟩
  · rw [hgrant, hprovider]
    exact h.grant
  · rw [htable, hprovider]
    exact h.table

theorem snd_queryFlag (insn : Insn) (ask : Insn → Except Error Bool) :
    (session.queryFlag insn ask).2 = (session.query insn ask).2 := by
  unfold queryFlag
  split <;> next h => rw [h]

theorem snd_opCount (insn : Insn) (kind : OperandKind) :
    (session.opCount insn kind).2 = (session.query insn (·.opCount kind)).2 := by
  unfold opCount
  split <;> next h => rw [h]

theorem snd_opIndex (insn : Insn) (kind : OperandKind) (nth : Nat) :
    (session.opIndex insn kind nth).2 = (session.query insn (·.opIndex kind nth)).2 := by
  unfold opIndex
  split <;> next h => rw [h]

theorem close_exchange (session : Session) (host : Host) :
    host.Exchange session.grants (session.close host) [] :=
  ((Host.Exchange.refl host session.grants).note _).trans (drop_exchange session _)

end Session

namespace Engine

open Session (Entry)

variable {engine : Engine} {a b : List Grant} {host host' : Host} {name out : String}
  {session session' : Session}

theorem openTarget_entry (host : Host) (provider : Except Error ProviderId) (target : Target) :
    Entry host (openTarget host provider target) := by
  unfold openTarget
  split
  · unfold openRaw
    split
    · exact .failed (.refl host [])
    · exact .failed (.refl host [])
    · exact .failed (.refl host [])
    · exact Session.openWith_entry _ _ _ _ _
  · exact .failed (.refl host [])
  · exact Session.openWith_entry _ _ _ _ _
  · exact (Session.ofConfig_opened _ _ _ _).entry (Arch.honest_backend _ _)
  · refine (Session.assemble_opened fun host => ?_).entry Toy.honest_backend
    exact .ready (fun table h => by cases h) (.refl host [])
  · next arch mode family id =>
    exact (Session.assemble_opened fun host =>
      Capabilities.wire_rules_wired family host id).entry family.honest_backend

theorem sessionUnder_of_find? (h : engine.sessions.find? name = some session) :
    engine.sessionUnder name = session.grants := by
  rw [sessionUnder, Named.grantsUnder, h]
  rfl

theorem outputUnder_of_find? {output : Output} (h : engine.outputs.find? out = some output) :
    engine.outputUnder out = output.grants := by
  rw [outputUnder, Named.grantsUnder, h]
  rfl

theorem sound_of_find? (h : engine.Sound) (hfind : engine.sessions.find? name = some session) :
    session.Sound := h.sessions session (Named.mem_values_of_find? hfind)

theorem Sound.changeSession (h : engine.Sound)
    (hfind : engine.sessions.find? name = some session) (hsound : session'.Sound)
    (hgrants : session'.grants = session.grants) (hexchange : engine.host.Exchange a host' b) :
    Moves engine a
      { engine with host := host', sessions := engine.sessions.insert name session' } b := by
  apply h.putSession hsound
  rw [sessionUnder_of_find? hfind, hgrants]
  exact hexchange.frame session.grants

theorem putSession_moves (h : engine.Sound) (hsound : session.Sound) (name : String)
    (hexchange : engine.host.Exchange [] host' session.grants) :
    Moves engine [] ({ engine with host := host' }.putSession name session) [] := by
  unfold putSession
  cases hfind : engine.sessions.find? name with
  | none =>
    apply h.putSession hsound
    rw [sessionUnder, Named.grantsUnder, hfind]
    exact hexchange
  | some old =>
    apply h.putSession hsound
    rw [sessionUnder_of_find? hfind]
    -- The session that had the name is dropped once the new one is open.
    apply (hexchange.frame old.grants).trans
    exact ((Session.drop_exchange old host').frame session.grants).perm List.perm_append_comm
      (.refl _)

theorem endSession_moves (h : engine.Sound) {finish : Session → Host → Host}
    (hfinish : ∀ (session : Session) (host : Host),
      host.Exchange session.grants (finish session host) [])
    {name : Option String} {engine' : Engine}
    (hend : engine.endSession name finish = some engine') : Moves engine [] engine' [] := by
  unfold endSession at hend
  split at hend
  · next name session hfind =>
    cases hend
    apply h.eraseSession
    rw [sessionUnder_of_find? hfind]
    exact hfinish session engine.host
  · cases hend

theorem dropOutput_moves (h : engine.Sound) (out : String) :
    Moves engine a (engine.dropOutput out) a := by
  unfold dropOutput
  split
  · next output hfind =>
    apply h.eraseOutput
    rw [outputUnder_of_find? hfind]
    exact ((Grant.releaseAll_exchange output.grants engine.host).frame a).perm
      List.perm_append_comm (.refl _)
  · exact h.moves rfl rfl (.refl _ a)

theorem outputUnder_dropOutput (engine : Engine) (out : String) :
    (engine.dropOutput out).outputUnder out = [] := by
  unfold dropOutput
  split
  · exact Named.grantsUnder_erase _ _ out
  · next hfind =>
    rw [outputUnder, Named.grantsUnder, hfind]
    rfl

theorem sessions_dropOutput (engine : Engine) (out : String) :
    (engine.dropOutput out).sessions = engine.sessions := by
  unfold dropOutput
  split <;> rfl

theorem sound_askSession (insn : Insn) (query : Query) (h : session.Sound) :
    (askSession session insn query).2.Sound ∧
      (askSession session insn query).2.grants = session.grants := by
  have hquery : ∃ error, (askSession session insn query).2 =
      { session with lastError := error } := by
    cases query with
    | inGroup group => exact ⟨_, Session.snd_queryFlag insn _⟩
    | readsReg reg => exact ⟨_, Session.snd_queryFlag insn _⟩
    | writesReg reg => exact ⟨_, Session.snd_queryFlag insn _⟩
    | opCount kind => exact ⟨_, Session.snd_opCount insn kind⟩
    | opIndex kind nth => exact ⟨_, Session.snd_opIndex insn kind nth⟩
  obtain ⟨error, hquery⟩ := hquery
  rw [hquery]
  exact ⟨h.of_eq rfl rfl rfl, rfl⟩

/-- What lies between other slots is given back and something else put in its place. -/
theorem exchange_between {before old put after : List Insn}
    (h : host.Exchange (Insn.allGrants old) host' (Insn.allGrants put)) :
    host.Exchange (Insn.allGrants (before ++ old ++ after)) host'
      (Insn.allGrants (before ++ put ++ after)) :=
  (h.frame _).perm (Insn.allGrants_between before old after)
    (Insn.allGrants_between before put after)

theorem decodeInto_moves (h : engine.Sound) (hfind : engine.sessions.find? name = some session)
    {before slots after : List Insn}
    (hunder : engine.outputUnder out = Insn.allGrants (before ++ slots ++ after))
    (hpaid : Insn.AllPaid (before ++ slots ++ after)) (code : List UInt8) (address : UInt64) :
    Moves engine [] (engine.decodeInto name session out code address before slots after).2 [] := by
  have hsound := sound_of_find? h hfind
  have hfills := Session.fill_spec hsound.backend.keepsSize
    (engine.host.provider session.provider) slots engine.host code address fun _ _ => rfl
  have hslots : Insn.AllPaid slots := fun insn hmem => hpaid insn (by simp [hmem])
  have hfilled := Session.paid_fill hsound.backend hslots engine.host code address
  have houtput : (Output.slots
      (before ++ (session.fill engine.host code address slots).1.slots ++ after)).Sound :=
    Insn.forall_between hpaid hfilled
  have hexchange : engine.host.Exchange ([] ++ engine.outputUnder out)
      (session.fill engine.host code address slots).2 ([] ++ (Output.slots
        (before ++ (session.fill engine.host code address slots).1.slots ++ after)).grants) := by
    rw [hunder]
    exact exchange_between hfills.exchange
  have hput := h.putOutput houtput hexchange
  refine hput.trans (hput.sound.changeSession hfind ?_ rfl (.refl _ []))
  exact hsound.of_eq rfl rfl rfl

theorem sessions_slotsFor (engine : Engine) (out : String) (slots : Nat) (reuse : Bool) :
    (engine.slotsFor out slots reuse).1.sessions = engine.sessions := by
  unfold slotsFor
  split
  · rfl
  · exact sessions_dropOutput engine out

theorem allGrants_of_no_detail {insns : List Insn} (h : ∀ insn ∈ insns, insn.detail = none) :
    Insn.allGrants insns = [] :=
  List.flatMap_eq_nil_iff.2 fun insn hmem => by rw [Insn.grants, h insn hmem]; rfl

theorem slotsFor_moves (h : engine.Sound) (out : String) (slots : Nat) (reuse : Bool) :
    Moves engine [] (engine.slotsFor out slots reuse).1 [] ∧
      (engine.slotsFor out slots reuse).1.outputUnder out =
        Insn.allGrants ([] ++ (engine.slotsFor out slots reuse).2 ++ []) ∧
      Insn.AllPaid ([] ++ (engine.slotsFor out slots reuse).2 ++ []) := by
  rw [List.nil_append, List.append_nil]
  unfold slotsFor
  split
  · next insns hkept =>
    exact ⟨h.stays, outputUnder_of_find? hkept, h.outputs _ (Named.mem_values_of_find? hkept)⟩
  · refine ⟨dropOutput_moves h out, ?_, ?_⟩
    -- New slots are blank and hold nothing.
    · rw [outputUnder_dropOutput, allGrants_of_no_detail]
      intro insn hmem
      rw [(List.mem_replicate.1 hmem).2]
    · intro insn hmem
      rw [(List.mem_replicate.1 hmem).2]
      exact Insn.paid_of_none rfl

theorem runDisasm_moves (h : engine.Sound) (hfind : engine.sessions.find? name = some session)
    (out : String) (code : List UInt8) (address : UInt64) (slots : Nat) (reuse : Bool) :
    Moves engine [] (engine.runDisasm name session out code address slots reuse).2 [] := by
  obtain ⟨hmoves, hunder, hpaid⟩ := slotsFor_moves h out slots reuse
  have hsession : (engine.slotsFor out slots reuse).1.sessions.find? name = some session := by
    rw [sessions_slotsFor, hfind]
  exact hmoves.trans (decodeInto_moves hmoves.sound hsession hunder hpaid code address)

theorem take_slotsWithin_drop (insns : List Insn) (start count : Nat) :
    insns.take start ++ slotsWithin insns start count ++ insns.drop (start + count) = insns := by
  rw [slotsWithin, ← List.drop_drop, List.append_assoc, List.take_append_drop,
    List.take_append_drop]

theorem runDisasmWithin_moves (h : engine.Sound)
    (hfind : engine.sessions.find? name = some session) (out : String) (code : List UInt8)
    (address : UInt64) (start count : Nat) :
    Moves engine [] (engine.runDisasmWithin name session out code address start count).2 [] := by
  unfold runDisasmWithin
  split
  · next insns hkept =>
    have hall := take_slotsWithin_drop insns start count
    refine decodeInto_moves h hfind ?_ ?_ code address
    · rw [hall]
      exact outputUnder_of_find? hkept
    · rw [hall]
      exact h.outputs _ (Named.mem_values_of_find? hkept)
  · exact h.stays

theorem eq_between_of_getElem? {insns : List Insn} {index : Nat} {old : Insn}
    (h : insns[index]? = some old) :
    insns = insns.take index ++ [old] ++ insns.drop (index + 1) := by
  obtain ⟨hlt, rfl⟩ := List.getElem?_eq_some_iff.1 h
  rw [List.append_assoc, List.singleton_append, ← List.drop_eq_getElem_cons hlt,
    List.take_append_drop]

theorem replaceSlot_moves (h : engine.Sound) (out : String) (index : Nat) {put : List Insn}
    (hput : ∀ insn ∈ put, insn.detail = none) :
    Moves engine [] (engine.replaceSlot out index put).2 [] := by
  unfold replaceSlot
  split
  · next insns hkept =>
    split
    · next old hold =>
      have hinsns := eq_between_of_getElem? hold
      have hpaid : Insn.AllPaid insns := h.outputs _ (Named.mem_values_of_find? hkept)
      rw [hinsns] at hpaid
      apply h.putOutput
      · exact Insn.forall_between hpaid fun insn hmem => Insn.paid_of_none (hput insn hmem)
      · rw [outputUnder_of_find? hkept]
        have hold : engine.host.Exchange (Insn.allGrants [old])
            (Grant.releaseAll old.grants engine.host) (Insn.allGrants put) := by
          rw [Insn.allGrants_singleton, allGrants_of_no_detail hput]
          exact Grant.releaseAll_exchange _ _
        have hbetween : engine.host.Exchange
            (Insn.allGrants (insns.take index ++ [old] ++ insns.drop (index + 1))) _
            (Insn.allGrants (insns.take index ++ put ++ insns.drop (index + 1))) :=
          exchange_between hold
        rwa [← hinsns] at hbetween
    · exact h.stays
  · exact h.stays

theorem runDisasmAll_moves (h : engine.Sound)
    (hfind : engine.sessions.find? name = some session) (out : String) (code : List UInt8)
    (address : UInt64) (count : Nat) :
    Moves engine [] (engine.runDisasmAll name session out code address count).2 [] := by
  have hsound := sound_of_find? h hfind
  unfold runDisasmAll Session.disasmAll
  cases hcollect : session.collect engine.host code address count with
  | mk result host' =>
    cases result with
    | error error =>
      have hexchange := Session.collect_error hsound.backend.keepsSize hcollect
      exact h.changeSession hfind (hsound.of_eq rfl rfl rfl) rfl (hexchange.note _)
    | ok instructions =>
      obtain ⟨hinsns, hpaid, hexchange⟩ := Session.paid_collect hsound.backend hcollect
      have hregion : (Output.region instructions).Sound := by
        refine ⟨hinsns, ?_⟩
        rw [hpaid.provider]
        exact hpaid
      -- The new result is in the hand while the one that had the name is dropped.
      have hforgiven : { session with lastError := none }.Sound := hsound.of_eq rfl rfl rfl
      have hchanged := h.changeSession hfind hforgiven rfl hexchange
      have hdropped := hchanged.trans (dropOutput_moves hchanged.sound out)
      refine hdropped.trans (hdropped.sound.putOutput hregion ?_)
      rw [outputUnder_dropOutput, List.append_nil]
      exact .refl _ _

theorem applyOption_moves (h : engine.Sound) (name : Option String) (opt : Opt ProviderId) :
    Moves engine [] (engine.applyOption name opt).2 [] := by
  unfold applyOption
  split
  · exact h.moves rfl rfl ((Host.Exchange.refl _ []).note _)
  · exact h.moves rfl rfl (.refl _ [])
  · next on name session hfind =>
    have hsound := sound_of_find? h hfind
    exact h.changeSession hfind (hsound.of_eq rfl rfl rfl) rfl ((Host.Exchange.refl _ []).note _)
  · next dialect name session hfind =>
    have hsound := sound_of_find? h hfind
    have hnote := (Host.Exchange.refl engine.host []).note (.option session.arch (.dialect dialect))
    by_cases haccepts : session.backend.accepts dialect = true
    · rw [Session.setDialect_of_accepts haccepts]
      exact h.changeSession hfind (hsound.of_eq rfl rfl rfl) rfl hnote
    · rw [Session.setDialect_of_refuses haccepts]
      exact h.changeSession hfind (hsound.of_eq rfl rfl rfl) rfl hnote
  · exact h.stays

theorem withSession_moves (h : engine.Sound) (name : Option String)
    {act : String → Session → Answer × Engine}
    (hact : ∀ name session, engine.sessions.find? name = some session →
      Moves engine [] (act name session).2 []) :
    Moves engine [] (engine.withSession name act).2 [] := by
  unfold withSession
  split
  · next name session hfind => exact hact name session hfind
  · exact h.stays

theorem step_moves (h : engine.Sound) (op : Op) : Moves engine [] (engine.step op).2 [] := by
  cases op with
  | openSession name source target =>
    have hentry := openTarget_entry engine.host (engine.resolve source) target
    unfold step
    dsimp only
    cases hopen : openTarget engine.host (engine.resolve source) target with
    | mk result host =>
      rw [hopen] at hentry
      cases hentry with
      | opened hsound hexchange => exact putSession_moves h hsound name hexchange
      | failed hexchange => exact h.moves rfl rfl hexchange
  | consult name decoder =>
    unfold step
    dsimp only
    split
    · next session hfind =>
      have hsound := sound_of_find? h hfind
      refine h.changeSession hfind ⟨?_, hsound.grant, hsound.table⟩ rfl (.refl _ [])
      exact session.arch.honest_backend _
    · exact h.stays
  | option name opt => exact applyOption_moves h name opt
  | close name =>
    unfold step
    dsimp only
    split
    · next hend => exact endSession_moves h Session.close_exchange hend
    · exact h.stays
  | dropSession name =>
    unfold step
    dsimp only
    split
    · next hend => exact endSession_moves h Session.drop_exchange hend
    · exact h.stays
  | disasm name out code address slots reuse =>
    exact withSession_moves h name fun name session hfind =>
      runDisasm_moves h hfind out code address slots reuse
  | disasmWithin name out code address start count =>
    exact withSession_moves h name fun name session hfind =>
      runDisasmWithin_moves h hfind out code address start count
  | disasmAll name out code address count =>
    exact withSession_moves h name fun name session hfind =>
      runDisasmAll_moves h hfind out code address count
  | overwrite out index address size =>
    exact replaceSlot_moves h out index fun insn hmem => by rw [List.mem_singleton.1 hmem]; rfl
  | discard out index =>
    exact replaceSlot_moves h out index fun _ hmem => absurd hmem List.not_mem_nil
  | free out =>
    unfold step
    dsimp only
    split
    · exact dropOutput_moves h out
    · exact h.stays
  | query name out index query =>
    apply withSession_moves h name
    intro name session hfind
    dsimp only
    split
    · exact h.stays
    · next insn _ =>
      obtain ⟨hsound, hgrants⟩ := sound_askSession insn query (sound_of_find? h hfind)
      exact h.changeSession hfind hsound hgrants (.refl _ [])
  | install registry provider => exact h.moves rfl rfl (.refl _ [])
  | registry registry => exact h.stays
  | errno name => exact h.stays
  | state name => exact withSession_moves h name fun _ _ _ => h.stays
  | records out =>
    unfold step
    dsimp only
    split <;> exact h.stays
  | format out format base => exact h.stays
  | insnQuery out index query =>
    unfold step
    dsimp only
    split <;> exact h.stays
  | regName name reg => exact withSession_moves h name fun _ _ _ => h.stays
  | insnName name id => exact withSession_moves h name fun _ _ _ => h.stays
  | tableName name reg => exact withSession_moves h name fun _ _ _ => h.stays

theorem run_moves (h : engine.Sound) (ops : List Op) : Moves engine [] (engine.run ops) [] := by
  induction ops generalizing engine with
  | nil => exact h.stays
  | cons op ops ih =>
    have hstep := step_moves h op
    exact hstep.trans (ih hstep.sound)

end Engine

end Disassembly
