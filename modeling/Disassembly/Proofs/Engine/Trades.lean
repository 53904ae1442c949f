import Disassembly.Proofs.Engine.Sessions
import Disassembly.Proofs.Session.Confinement
/-!
# Whom an operation asks, and where blocks go back

An operation asks one provider for memory, or none. Some blocks that were alive are given back,
each to the provider that it is from, and what comes to life is from the provider that was asked.
For every other provider this is all that happens.
-/
namespace Disassembly

open Grant (AllFrom allFrom_nil allFrom_append)

theorem Payload.provider_paid {α : Type} [Footprint α] (id : ProviderId) (value : α) :
    (Payload.paid id value).grant.provider = id := rfl

theorem Session.Sound.allFrom {session : Session} (h : session.Sound) :
    AllFrom session.provider session.grants := by
  refine allFrom_append.2 ⟨?_, Grant.allFrom_singleton rfl⟩
  cases htable : session.sideTable with
  | none => exact allFrom_nil
  | some table =>
    obtain ⟨name, hkept⟩ := h.table table htable
    refine Grant.allFrom_singleton ?_
    rw [hkept, Payload.provider_paid]

theorem Session.grants_lastError (session : Session) (error : Option Error) :
    ({ session with lastError := error } : Session).grants = session.grants := rfl

theorem Session.Sound.keepsTo {session : Session} (h : session.Sound) :
    session.KeepsTo session.provider := keepsTo_of_allFrom h.allFrom

theorem Host.Exchange.cancel {host host' : Host} {a b c : List Grant}
    (h : host.Exchange (a ++ c) host' (b ++ c)) : host.Exchange a host' b := by
  constructor
  · exact h.reset
  · intro id hc
    have := h.bytes id hc
    simp only [Grant.heldBytes_append] at this
    omega
  · intro id hc
    have := h.blocks id hc
    simp only [Grant.heldBlocks_append] at this
    omega

namespace Engine

variable {engine engine' : Engine} {name : String} {session session' : Session} {op : Op}
  {freed granted : List Grant}

/-- The provider that an operation asks for memory, if it asks any: the one that a source means at
this moment, or the one of the session that decodes. -/
def asked (engine : Engine) : Op → Option ProviderId
  | .openSession _ source _ => (engine.resolve source).toOption
  | .disasm name .. | .disasmWithin name .. | .disasmAll name .. =>
    (engine.session? name).map Session.provider
  | _ => none

/-- Some of the blocks that were alive are given back, the others are kept, and what is granted
comes from the provider that is asked. The counters of this one move by just these blocks, and the
others see their own blocks come back. -/
structure Trades (asked : Option ProviderId) (engine : Engine) (freed : List Grant)
    (engine' : Engine) (granted : List Grant) : Prop where
  alive : ∃ kept, engine.grants.Perm (freed ++ kept) ∧ engine'.grants.Perm (granted ++ kept)
  fresh : ∀ grant ∈ granted, asked = some grant.provider
  counters : engine.host.Exchange freed engine'.host granted
  others : ∀ id, asked ≠ some id → engine'.host.provider id =
    (engine.host.provider id).giveBack (Grant.blocks id freed)

theorem Moves.trades (h : Moves engine [] engine' []) {asked : Option ProviderId}
    (kept : List Grant) (hbefore : engine.grants.Perm (freed ++ kept))
    (hafter : engine'.grants.Perm (granted ++ kept))
    (hgranted : ∀ grant ∈ granted, asked = some grant.provider)
    (hothers : ∀ id, asked ≠ some id → engine'.host.provider id =
      (engine.host.provider id).giveBack (Grant.blocks id freed)) :
    Trades asked engine freed engine' granted :=
  ⟨⟨kept, hbefore, hafter⟩, hgranted, (h.exchange.perm hbefore.symm hafter.symm).cancel, hothers⟩

theorem Moves.idle (h : Moves engine [] engine' []) (asked : Option ProviderId)
    (hgrants : engine'.grants.Perm engine.grants)
    (hothers : ∀ id, asked ≠ some id → engine'.host.provider id = engine.host.provider id) :
    ∃ freed granted, Trades asked engine freed engine' granted :=
  ⟨[], [], h.trades _ (.refl _) hgrants (fun _ hmem => absurd hmem List.not_mem_nil) hothers⟩

theorem grants_changeSession (h : engine.Sound) (hfind : engine.sessions.find? name = some session)
    (hgrants : session'.grants = session.grants) (host : Host) (outputs : Named Output) :
    { engine with host, outputs, sessions := engine.sessions.insert name session' }.grants.Perm
      { engine with outputs }.grants := by
  have hbefore := Named.grants_perm h.sessionNames Session.grants name
  have hafter := Named.grants_insert_perm h.sessionNames Session.grants name session'
  rw [Named.grantsUnder, hfind] at hbefore
  rw [hgrants] at hafter
  exact (hafter.trans hbefore.symm).append_left _

theorem grants_dropOutput (h : engine.Sound) (out : String) :
    engine.grants.Perm (engine.outputUnder out ++ (engine.dropOutput out).grants) := by
  unfold dropOutput
  cases hfind : engine.outputs.find? out with
  | none =>
    rw [outputUnder, Named.grantsUnder, hfind]
    exact .refl _
  | some output => exact grants_eraseOutput h out

theorem provider_dropOutput (engine : Engine) (out : String) (id : ProviderId) :
    (engine.dropOutput out).host.provider id =
      (engine.host.provider id).giveBack (Grant.blocks id (engine.outputUnder out)) := by
  unfold dropOutput
  cases hfind : engine.outputs.find? out with
  | none =>
    rw [outputUnder, Named.grantsUnder, hfind]
    rfl
  | some output =>
    rw [outputUnder_of_find? hfind]
    exact Grant.provider_releaseAll output.grants engine.host id

theorem trades_openSession (h : engine.Sound) (name : String) (source : Source) (target : Target) :
    ∃ freed granted, Trades (engine.asked (.openSession name source target)) engine freed
      (engine.step (.openSession name source target)).2 granted := by
  have hmoves := step_moves h (.openSession name source target)
  cases hsource : engine.resolve source with
  | error cause =>
    obtain ⟨error, hopen⟩ := Session.openTarget_of_error cause target
    have hstep : (engine.step (.openSession name source target)).2 = engine := by
      unfold step
      dsimp only
      rw [hsource, hopen]
    rw [hstep] at hmoves ⊢
    exact hmoves.idle _ (.refl _) fun _ _ => rfl
  | ok id =>
    have hasked : engine.asked (.openSession name source target) = some id := by
      rw [asked, hsource]
      rfl
    rw [hasked]
    have hdraws := Session.openTarget_draws id target
    have hresult := hdraws.result engine.host
    have hothers := hdraws.others engine.host
    rcases engine.step_openSession name source target with ⟨session, host, hopen, hstep⟩ |
      ⟨error, host, hopen, hstep⟩
    · rw [hsource] at hopen
      rw [hopen] at hresult hothers
      rw [hstep] at hmoves ⊢
      refine ⟨engine.sessionUnder name, session.grants,
        hmoves.trades _ (grants_eraseSession h name) (grants_insertSession h name session) ?_ ?_⟩
      · intro grant hmem
        rw [hresult grant hmem]
      · intro other hother
        have hhost : host.provider other = engine.host.provider other :=
          hothers other fun heq => hother (congrArg some heq.symm)
        rw [sessionUnder, Named.grantsUnder, ← hhost, putSession]
        cases hfind : engine.sessions.find? name with
        | none => rfl
        | some old => exact Grant.provider_releaseAll old.grants host other
    · rw [hsource] at hopen
      rw [hopen] at hothers
      rw [hstep] at hmoves ⊢
      exact hmoves.idle _ (.refl _) fun other hother =>
        hothers other fun heq => hother (congrArg some heq.symm)

theorem trades_endSession (h : engine.Sound) {finish : Session → Host → Host}
    (hfinish : ∀ (session : Session) (host : Host) (id : ProviderId),
      (finish session host).provider id =
        (host.provider id).giveBack (Grant.blocks id session.grants))
    (name : Option String)
    (hmoves : Moves engine [] ((engine.endSession name finish).getD engine) []) :
    ∃ freed granted, Trades none engine freed ((engine.endSession name finish).getD engine)
      granted := by
  unfold endSession at hmoves ⊢
  split at hmoves
  · next name session hfind =>
    refine ⟨session.grants, [], hmoves.trades _ ?_ (.refl _)
      (fun _ hmem => absurd hmem List.not_mem_nil) fun id _ => hfinish session engine.host id⟩
    rw [← sessionUnder_of_find? hfind]
    exact grants_eraseSession h name
  · exact hmoves.idle _ (.refl _) fun _ _ => rfl

theorem trades_free (h : engine.Sound) (out : String) :
    ∃ freed granted, Trades none engine freed (engine.step (.free out)).2 granted := by
  have hstep : (engine.step (.free out)).2 = engine.dropOutput out := by
    unfold step dropOutput
    cases hfind : engine.outputs.find? out with
    | none => simp [hfind]
    | some output => simp [hfind]
  have hmoves := step_moves h (.free out)
  rw [hstep] at hmoves ⊢
  exact ⟨engine.outputUnder out, [], hmoves.trades _ (grants_dropOutput h out) (.refl _)
    (fun _ hmem => absurd hmem List.not_mem_nil) fun id _ => provider_dropOutput engine out id⟩

theorem Trades.after_drop {middle : Engine} {asked : Option ProviderId} {dropped : List Grant}
    (h : Trades asked middle freed engine' granted)
    (hgrants : engine.grants.Perm (dropped ++ middle.grants))
    (hexchange : engine.host.Exchange dropped middle.host [])
    (hhost : ∀ id, middle.host.provider id =
      (engine.host.provider id).giveBack (Grant.blocks id dropped)) :
    Trades asked engine (dropped ++ freed) engine' granted := by
  obtain ⟨kept, hbefore, hafter⟩ := h.alive
  refine ⟨⟨kept, ?_, hafter⟩, h.fresh, (hexchange.frame freed).trans h.counters, ?_⟩
  · rw [List.append_assoc]
    exact hgrants.trans (hbefore.append_left dropped)
  · intro id hid
    rw [Grant.blocks_append, Provider.giveBack_append, ← hhost]
    exact h.others id hid

theorem trades_decodeInto (h : engine.Sound) (hfind : engine.sessions.find? name = some session)
    {out : String} {before slots after : List Insn}
    (hunder : engine.outputUnder out = Insn.allGrants (before ++ slots ++ after))
    (hpaid : Insn.AllPaid (before ++ slots ++ after)) (code : List UInt8) (address : UInt64) :
    ∃ freed granted, Trades (some session.provider) engine freed
      (engine.decodeInto name session out code address before slots after).2 granted := by
  have hmoves := decodeInto_moves h hfind hunder hpaid code address
  have hfills := Session.fill_spec (sound_of_find? h hfind).backend.keepsSize
    (engine.host.provider session.provider) slots engine.host code address fun _ _ => rfl
  have hconfined := session.fill_confined code address slots
  have hresult := hconfined.result engine.host
  have hothers := hconfined.others engine.host
  unfold decodeInto Session.disasm at hmoves ⊢
  dsimp only at *
  cases hfill : session.fill engine.host code address slots with
  | mk filled host =>
    rw [hfill] at hfills hresult hothers
    simp only [hfill] at hmoves ⊢
    let rest : Engine := { engine with outputs := engine.outputs.erase out }
    let kept := Insn.allGrants filled.untouched ++
      (Insn.allGrants before ++ (Insn.allGrants after ++ rest.grants))
    -- The other slots and what was not reached stay as they are, between the old and the new.
    have hall : ∀ written : List Insn,
        (Insn.allGrants (before ++ (written ++ filled.untouched) ++ after) ++ rest.grants).Perm
          (Insn.allGrants written ++ kept) := by
      intro written
      have hbetween :=
        Insn.allGrants_between_append before (written ++ filled.untouched) after rest.grants
      rw [Insn.allGrants_append written] at hbetween
      exact hbetween.trans (.of_eq (List.append_assoc _ _ _))
    refine ⟨Insn.allGrants (slots.take filled.produced.length), Insn.allGrants filled.produced,
      hmoves.trades kept ?_ ?_ ?_ ?_⟩
    · have herase := grants_eraseOutput h out
      have hsplit : slots.take filled.produced.length ++ filled.untouched = slots := by
        rw [hfills.untouched, List.take_append_drop]
      rw [hunder] at herase
      refine herase.trans (.trans (.of_eq ?_) (hall _))
      rw [hsplit]
    · have hput := grants_insertOutput h out (.slots (before ++ filled.slots ++ after))
      have hchange := session.grants_lastError filled.error
      exact ((grants_changeSession h hfind hchange host _).trans hput).trans (hall _)
    · intro grant hmem
      rw [hresult grant hmem]
    · intro id hid
      exact hothers id fun heq => hid (congrArg some heq.symm)

theorem slotsFor_found (h : engine.Sound) (out : String) (slots : Nat) (reuse : Bool) :
    ∃ dropped, engine.grants.Perm (dropped ++ (engine.slotsFor out slots reuse).1.grants) ∧
      engine.host.Exchange dropped (engine.slotsFor out slots reuse).1.host [] ∧
      ∀ id, (engine.slotsFor out slots reuse).1.host.provider id =
        (engine.host.provider id).giveBack (Grant.blocks id dropped) := by
  have hmoves := (slotsFor_moves h out slots reuse).1
  have hfound : ∃ dropped, engine.grants.Perm
        (dropped ++ (engine.slotsFor out slots reuse).1.grants) ∧
      ∀ id, (engine.slotsFor out slots reuse).1.host.provider id =
        (engine.host.provider id).giveBack (Grant.blocks id dropped) := by
    unfold slotsFor
    split
    · exact ⟨[], .refl _, fun _ => rfl⟩
    · exact ⟨_, grants_dropOutput h out, provider_dropOutput engine out⟩
  obtain ⟨dropped, hgrants, hhost⟩ := hfound
  exact ⟨dropped, hgrants, (hmoves.exchange.perm hgrants.symm (.refl _)).cancel, hhost⟩

theorem trades_runDisasm (h : engine.Sound) (hfind : engine.sessions.find? name = some session)
    (out : String) (code : List UInt8) (address : UInt64) (slots : Nat) (reuse : Bool) :
    ∃ freed granted, Trades (some session.provider) engine freed
      (engine.runDisasm name session out code address slots reuse).2 granted := by
  obtain ⟨hmoves, hunder, hpaid⟩ := slotsFor_moves h out slots reuse
  obtain ⟨dropped, hgrants, hexchange, hhost⟩ := slotsFor_found h out slots reuse
  have hsession : (engine.slotsFor out slots reuse).1.sessions.find? name = some session := by
    rw [sessions_slotsFor, hfind]
  obtain ⟨freed, granted, htrades⟩ := trades_decodeInto hmoves.sound hsession
    hunder hpaid code address
  exact ⟨dropped ++ freed, granted, htrades.after_drop hgrants hexchange hhost⟩

theorem trades_runDisasmWithin (h : engine.Sound)
    (hfind : engine.sessions.find? name = some session) (out : String) (code : List UInt8)
    (address : UInt64) (start count : Nat) :
    ∃ freed granted, Trades (some session.provider) engine freed
      (engine.runDisasmWithin name session out code address start count).2 granted := by
  unfold runDisasmWithin
  split
  · next insns hkept =>
    have hall := take_slotsWithin_drop insns start count
    refine trades_decodeInto h hfind ?_ ?_ code address
    · rw [hall]
      exact outputUnder_of_find? hkept
    · rw [hall]
      exact h.outputs _ (Named.mem_values_of_find? hkept)
  · exact h.stays.idle _ (.refl _) fun _ _ => rfl

theorem trades_runDisasmAll (h : engine.Sound)
    (hfind : engine.sessions.find? name = some session) (out : String) (code : List UInt8)
    (address : UInt64) (count : Nat) :
    ∃ freed granted, Trades (some session.provider) engine freed
      (engine.runDisasmAll name session out code address count).2 granted := by
  have hmoves := runDisasmAll_moves h hfind out code address count
  have hdraws := session.collect_draws code address count
  have hresult := hdraws.result engine.host
  have hothers := hdraws.others engine.host
  cases hcollect : session.collect engine.host code address count with
  | mk result host =>
    rw [hcollect] at hresult hothers
    cases result with
    | error error =>
      rw [runDisasmAll_of_error hcollect] at hmoves ⊢
      refine hmoves.idle _
        (grants_changeSession h hfind (session.grants_lastError _) _ _) fun id hid => ?_
      exact hothers id fun heq => hid (congrArg some heq.symm)
    | ok instructions =>
      rw [runDisasmAll_of_ok hcollect] at hmoves ⊢
      -- The result that had the name is dropped before the new one is there.
      let changed : Engine := { engine with
        host, sessions := engine.sessions.insert name { session with lastError := none } }
      have hforgiven : { session with lastError := none }.Sound :=
        (sound_of_find? h hfind).of_eq rfl rfl rfl
      have hsound := (h.changeSession hfind hforgiven rfl (.refl engine.host [])).sound
      have hchanged : changed.Sound :=
        ⟨hsound.sessionNames, hsound.outputNames, hsound.sessions, hsound.outputs⟩
      have hdropped := (dropOutput_moves (a := []) hchanged out).sound
      have hnothing := grants_eraseOutput hdropped out
      rw [outputUnder_dropOutput] at hnothing
      refine ⟨changed.outputUnder out, instructions.grants, hmoves.trades _ ?_
        (grants_insertOutput hdropped out (.region instructions)) ?_ ?_⟩
      · have hsame : engine.grants.Perm changed.grants :=
          (grants_changeSession h hfind (session.grants_lastError none) host engine.outputs).symm
        exact (hsame.trans (grants_dropOutput hchanged out)).trans (hnothing.append_left _)
      · intro grant hmem
        rw [hresult grant hmem]
      · intro id hid
        have hhost : host.provider id = engine.host.provider id :=
          hothers id fun heq => hid (congrArg some heq.symm)
        rw [← hhost]
        exact provider_dropOutput changed out id

theorem trades_option (h : engine.Sound) (name : Option String) (opt : Opt ProviderId) :
    ∃ freed granted, Trades none engine freed (engine.applyOption name opt).2 granted := by
  have hmoves := applyOption_moves h name opt
  unfold applyOption at hmoves ⊢
  split at hmoves
  · exact hmoves.idle _ (.refl _) fun _ _ => rfl
  · exact hmoves.idle _ (.refl _) fun _ _ => rfl
  · next on name session hfind =>
    have hgrants : (session.setDetail on engine.host).1.grants = session.grants := rfl
    exact hmoves.idle _ (grants_changeSession h hfind hgrants _ _) fun _ _ => rfl
  · next dialect name session hfind =>
    by_cases haccepts : session.backend.accepts dialect = true
    · rw [Session.setDialect_of_accepts haccepts] at hmoves ⊢
      have hgrants : Session.grants { session with dialect } = session.grants := rfl
      exact hmoves.idle _ (grants_changeSession h hfind hgrants _ _) fun _ _ => rfl
    · rw [Session.setDialect_of_refuses haccepts] at hmoves ⊢
      have hgrants : Session.grants { session with lastError := some .invalidOption } =
        session.grants := rfl
      exact hmoves.idle _ (grants_changeSession h hfind hgrants _ _) fun _ _ => rfl
  · exact hmoves.idle _ (.refl _) fun _ _ => rfl

theorem trades_replaceSlot (h : engine.Sound) (out : String) (index : Nat) {put : List Insn}
    (hput : ∀ insn ∈ put, insn.detail = none) :
    ∃ freed granted, Trades none engine freed (engine.replaceSlot out index put).2 granted := by
  have hmoves := replaceSlot_moves h out index hput
  unfold replaceSlot at hmoves ⊢
  split at hmoves
  · next insns hkept =>
    split at hmoves
    · next old hfound =>
      let rest : Engine := { engine with outputs := engine.outputs.erase out }
      have hbetween := fun written =>
        Insn.allGrants_between_append (insns.take index) written (insns.drop (index + 1))
          rest.grants
      have hbefore := grants_eraseOutput h out
      rw [outputUnder_of_find? hkept] at hbefore
      have hold := hbetween [old]
      rw [← eq_between_of_getElem? hfound, Insn.allGrants_singleton] at hold
      have hafter := (grants_insertOutput h out
        (.slots (insns.take index ++ put ++ insns.drop (index + 1)))).trans (hbetween put)
      rw [allGrants_of_no_detail hput] at hafter
      exact ⟨old.grants, [], hmoves.trades _ (hbefore.trans hold) hafter
        (fun _ hmem => absurd hmem List.not_mem_nil)
        fun id _ => Grant.provider_releaseAll old.grants engine.host id⟩
    · exact hmoves.idle _ (.refl _) fun _ _ => rfl
  · exact hmoves.idle _ (.refl _) fun _ _ => rfl

theorem trades_withSession (h : engine.Sound) (name : Option String) (asked : Option ProviderId)
    {act : String → Session → Answer × Engine}
    (hact : ∀ named session, engine.sessions.find? named = some session →
      engine.session? name = some session →
      ∃ freed granted, Trades asked engine freed (act named session).2 granted) :
    ∃ freed granted, Trades asked engine freed (engine.withSession name act).2 granted := by
  unfold withSession
  split
  · next named session hfind => exact hact named session hfind hfind
  · exact h.stays.idle _ (.refl _) fun _ _ => rfl

/-- Every operation asks one provider at most. All others only see their blocks come back. -/
theorem step_trades (h : engine.Sound) (op : Op) :
    ∃ freed granted, Trades (engine.asked op) engine freed (engine.step op).2 granted := by
  have hmoves := step_moves h op
  have hstays : ∀ asked, ∃ freed granted, Trades asked engine freed engine granted :=
    fun asked => h.stays.idle asked (.refl _) fun _ _ => rfl
  cases op with
  | openSession name source target => exact trades_openSession h name source target
  | consult name decoder =>
    unfold step at hmoves ⊢
    dsimp only at hmoves ⊢
    split at hmoves
    · next session hfind =>
      let backend := session.arch.backend (decoder session.arch)
      have hgrants : ({ session with backend } : Session).grants = session.grants := rfl
      exact hmoves.idle _ (grants_changeSession h hfind hgrants _ _) fun _ _ => rfl
    · exact hstays _
  | option name opt => exact trades_option h name opt
  | close name =>
    rw [step_close] at hmoves ⊢
    exact trades_endSession h Session.provider_close name hmoves
  | dropSession name =>
    rw [step_dropSession] at hmoves ⊢
    exact trades_endSession h Session.provider_drop name hmoves
  | disasm name out code address slots reuse =>
    refine trades_withSession h name _ fun named session hfind hsession => ?_
    rw [asked, hsession]
    exact trades_runDisasm h hfind out code address slots reuse
  | disasmWithin name out code address start count =>
    refine trades_withSession h name _ fun named session hfind hsession => ?_
    rw [asked, hsession]
    exact trades_runDisasmWithin h hfind out code address start count
  | disasmAll name out code address count =>
    refine trades_withSession h name _ fun named session hfind hsession => ?_
    rw [asked, hsession]
    exact trades_runDisasmAll h hfind out code address count
  | free out => exact trades_free h out
  | overwrite out index address size =>
    exact trades_replaceSlot h out index fun insn hmem => by rw [List.mem_singleton.1 hmem]; rfl
  | discard out index =>
    exact trades_replaceSlot h out index fun _ hmem => absurd hmem List.not_mem_nil
  | query name out index query =>
    refine trades_withSession h name _ fun named session hfind hsession => ?_
    cases hinsn : engine.insn? out index with
    | none => exact hstays _
    | some insn =>
      obtain ⟨hsound, hgrants⟩ := sound_askSession insn query (sound_of_find? h hfind)
      have hchanged := h.changeSession hfind hsound hgrants (.refl engine.host [])
      exact hchanged.idle _ (grants_changeSession h hfind hgrants _ _) fun _ _ => rfl
  | install registry provider => exact hmoves.idle _ (.refl _) fun _ _ => rfl
  | records out | insnQuery out =>
    unfold step
    dsimp only
    split <;> exact hstays _
  | state name | regName name | insnName name | tableName name =>
    exact trades_withSession h name _ fun _ _ _ _ => hstays _
  | registry registry | errno name | format out format base => exact hstays _

end Engine

end Disassembly
