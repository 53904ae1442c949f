import Disassembly.Proofs.Engine.Trades
import Disassembly.Proofs.Session.Calls
/-!
# Providers are captured

A session keeps the provider that its source meant when it was opened. What is installed later
reaches the sessions that are opened through that source, and through them whatever else lives on
the same provider. Until there is one, two engines that differ in one source, and in what was
reported, answer alike; and once something is installed in both, they differ no more. In any case
a session that was open before is only reached by way of what its provider refuses.
-/
namespace Disassembly

/-- Operations that install a provider, by the source under which it is found from then on. -/
inductive Op.Installs : Source → Op → Prop where
  | everywhere (name : Option String) (provider : ProviderId) :
      Installs .global (.option name (.memory provider))
  | locally (registry : String) (provider : ProviderId) :
      Installs (.registry registry) (.install registry provider)

inductive Op.OpensThrough (source : Source) : Op → Prop where
  | openSession (name : String) (target : Target) :
      OpensThrough source (.openSession name source target)

/-- The one question that is about a source itself and not about a session. -/
inductive Op.Inspects : Source → Op → Prop where
  | registry (registry : String) : Inspects (.registry registry) (.registry registry)

/-- Operations among which none opens a session through a source before a provider is installed
there. -/
inductive Op.Spare (source : Source) : List Op → Prop where
  | nil : Spare source []
  | installed {op : Op} {ops : List Op} : op.Installs source → Spare source (op :: ops)
  | cons {op : Op} {ops : List Op} : ¬ op.OpensThrough source → Spare source ops →
      Spare source (op :: ops)

namespace Engine

variable {engine engine' : Engine} {source : Source} {changed : Option Source}
  {name out : String} {session : Session} {op : Op}

def answers (engine : Engine) : List Op → List Answer
  | [] => []
  | op :: ops => (engine.step op).1 :: (engine.step op).2.answers ops

/-- Engines that differ only in what they reported, and in the provider that one source means, if
there is such a source. -/
structure AlikeBut (changed : Option Source) (engine engine' : Engine) : Prop where
  providers : ∀ id, engine.host.provider id = engine'.host.provider id
  sessions : engine.sessions = engine'.sessions
  outputs : engine.outputs = engine'.outputs
  resolve : ∀ source, changed ≠ some source → engine.resolve source = engine'.resolve source

namespace AlikeBut

theorem settled (h : AlikeBut (some source) engine engine')
    (hsource : engine.resolve source = engine'.resolve source) : AlikeBut none engine engine' := by
  refine ⟨h.providers, h.sessions, h.outputs, fun other _ => ?_⟩
  by_cases hother : other = source
  · rw [hother, hsource]
  · exact h.resolve other fun heq => hother (Option.some.inj heq).symm

theorem unsettled (h : AlikeBut none engine engine') (changed : Option Source) :
    AlikeBut changed engine engine' :=
  ⟨h.providers, h.sessions, h.outputs, fun other _ => h.resolve other (by rintro ⟨⟩)⟩

theorem session? (h : AlikeBut changed engine engine') (name : Option String) :
    engine.session? name = engine'.session? name := by
  rw [Engine.session?, Engine.session?, h.sessions]

theorem insn? (h : AlikeBut changed engine engine') (out : String) (index : Nat) :
    engine.insn? out index = engine'.insn? out index := by
  rw [Engine.insn?, Engine.insn?, h.outputs]

theorem putSession (h : AlikeBut changed engine engine') (name : String) (session : Session) :
    AlikeBut changed (engine.putSession name session) (engine'.putSession name session) := by
  refine ⟨?_, congrArg (·.insert name session) h.sessions, h.outputs, h.resolve⟩
  intro id
  unfold Engine.putSession
  rw [h.sessions]
  cases engine'.sessions.find? name with
  | none => exact h.providers id
  | some old => simp only [Session.drop, Grant.provider_releaseAll, h.providers]

theorem dropOutput (h : AlikeBut changed engine engine') (out : String) :
    AlikeBut changed (engine.dropOutput out) (engine'.dropOutput out) := by
  unfold Engine.dropOutput
  rw [h.outputs]
  cases engine'.outputs.find? out with
  | none => exact h
  | some output =>
    refine ⟨?_, h.sessions, rfl, h.resolve⟩
    intro id
    simp only [Output.drop, Grant.provider_releaseAll, h.providers]

theorem endSession (h : AlikeBut changed engine engine') {finish : Session → Host → Host}
    (hfinish : ∀ (session : Session) (host : Host) (id : ProviderId),
      (finish session host).provider id =
        (host.provider id).giveBack (Grant.blocks id session.grants))
    (name : Option String) :
    (engine.endSession name finish = none ∧ engine'.endSession name finish = none) ∨
      ∃ ended ended', engine.endSession name finish = some ended ∧
        engine'.endSession name finish = some ended' ∧ AlikeBut changed ended ended' := by
  unfold Engine.endSession
  rw [h.session? name, h.sessions]
  split
  · next name session _ =>
    refine .inr ⟨_, _, rfl, rfl, fun id => ?_, rfl, h.outputs, h.resolve⟩
    dsimp only
    rw [hfinish, hfinish, h.providers]
  · exact .inl ⟨rfl, rfl⟩

theorem changeSession (h : AlikeBut changed engine engine') (name : String) (session : Session)
    {host host' : Host} (hhost : ∀ id, host.provider id = host'.provider id) :
    AlikeBut changed { engine with host, sessions := engine.sessions.insert name session }
      { engine' with host := host', sessions := engine'.sessions.insert name session } :=
  ⟨hhost, congrArg (·.insert name session) h.sessions, h.outputs, h.resolve⟩

theorem slotsFor (h : AlikeBut changed engine engine') (out : String) (slots : Nat)
    (reuse : Bool) :
    AlikeBut changed (engine.slotsFor out slots reuse).1 (engine'.slotsFor out slots reuse).1 ∧
      (engine.slotsFor out slots reuse).2 = (engine'.slotsFor out slots reuse).2 := by
  unfold Engine.slotsFor
  rw [h.outputs]
  split
  · exact ⟨h, rfl⟩
  · exact ⟨h.dropOutput out, rfl⟩

theorem decodeInto (h : AlikeBut changed engine engine') (name : String) (session : Session)
    (out : String) (code : List UInt8) (address : UInt64) (before slots after : List Insn) :
    (engine.decodeInto name session out code address before slots after).1 =
        (engine'.decodeInto name session out code address before slots after).1 ∧
      AlikeBut changed (engine.decodeInto name session out code address before slots after).2
        (engine'.decodeInto name session out code address before slots after).2 := by
  obtain ⟨hfilled, hhost⟩ := (session.fill_confined code address slots).alike h.providers
  unfold Engine.decodeInto Session.disasm
  dsimp only
  rw [← hfilled]
  refine ⟨rfl, hhost, ?_, ?_, h.resolve⟩
  · rw [h.sessions]
  · rw [h.outputs]

theorem runDisasm (h : AlikeBut changed engine engine') (name : String) (session : Session)
    (out : String) (code : List UInt8) (address : UInt64) (slots : Nat) (reuse : Bool) :
    (engine.runDisasm name session out code address slots reuse).1 =
        (engine'.runDisasm name session out code address slots reuse).1 ∧
      AlikeBut changed (engine.runDisasm name session out code address slots reuse).2
        (engine'.runDisasm name session out code address slots reuse).2 := by
  obtain ⟨hfound, hslots⟩ := h.slotsFor out slots reuse
  unfold Engine.runDisasm
  dsimp only
  rw [← hslots]
  exact hfound.decodeInto name session out code address [] _ []

theorem runDisasmWithin (h : AlikeBut changed engine engine') (name : String) (session : Session)
    (out : String) (code : List UInt8) (address : UInt64) (start count : Nat) :
    (engine.runDisasmWithin name session out code address start count).1 =
        (engine'.runDisasmWithin name session out code address start count).1 ∧
      AlikeBut changed (engine.runDisasmWithin name session out code address start count).2
        (engine'.runDisasmWithin name session out code address start count).2 := by
  unfold Engine.runDisasmWithin
  rw [h.outputs]
  split
  · exact h.decodeInto name session out code address _ _ _
  · exact ⟨rfl, h⟩

theorem replaceSlot (h : AlikeBut changed engine engine') (out : String) (index : Nat)
    (put : List Insn) :
    (engine.replaceSlot out index put).1 = (engine'.replaceSlot out index put).1 ∧
      AlikeBut changed (engine.replaceSlot out index put).2
        (engine'.replaceSlot out index put).2 := by
  unfold Engine.replaceSlot
  rw [h.outputs]
  split
  · split
    · refine ⟨rfl, fun id => ?_, h.sessions, rfl, h.resolve⟩
      simp only [Grant.provider_releaseAll, h.providers]
    · exact ⟨rfl, h⟩
  · exact ⟨rfl, h⟩

theorem runDisasmAll (h : AlikeBut changed engine engine') (name : String) (session : Session)
    (out : String) (code : List UInt8) (address : UInt64) (count : Nat) :
    (engine.runDisasmAll name session out code address count).1 =
        (engine'.runDisasmAll name session out code address count).1 ∧
      AlikeBut changed (engine.runDisasmAll name session out code address count).2
        (engine'.runDisasmAll name session out code address count).2 := by
  have halike := (session.collect_draws code address count).alike h.providers
  cases hcollect : session.collect engine.host code address count with
  | mk result host =>
    cases hcollect' : session.collect engine'.host code address count with
    | mk result' host' =>
      rw [hcollect, hcollect'] at halike
      obtain ⟨rfl, hhost⟩ := halike
      cases result with
      | error error =>
        rw [runDisasmAll_of_error hcollect, runDisasmAll_of_error hcollect']
        exact ⟨rfl, h.changeSession name _ hhost⟩
      | ok instructions =>
        rw [runDisasmAll_of_ok hcollect, runDisasmAll_of_ok hcollect']
        have hchanged := h.changeSession name { session with lastError := none } hhost
        have hdropped := hchanged.dropOutput out
        refine ⟨rfl, hdropped.providers, hdropped.sessions, ?_, hdropped.resolve⟩
        exact congrArg (·.insert out (.region instructions)) hdropped.outputs

theorem applyOption (h : AlikeBut changed engine engine') (name : Option String)
    (opt : Opt ProviderId) :
    (engine.applyOption name opt).1 = (engine'.applyOption name opt).1 ∧
      AlikeBut changed (engine.applyOption name opt).2 (engine'.applyOption name opt).2 := by
  unfold Engine.applyOption
  rw [h.session? name]
  cases opt with
  | memory provider =>
    have hresolve : ∀ other, changed ≠ some other →
        ({ engine with installed := some provider } : Engine).resolve other =
          ({ engine' with installed := some provider } : Engine).resolve other := by
      intro other hother
      cases other with
      | global => rfl
      | provider id => rfl
      | registry registry => exact h.resolve (.registry registry) hother
    cases engine'.session? name with
    | none => exact ⟨rfl, h.providers, h.sessions, h.outputs, hresolve⟩
    | some session => exact ⟨rfl, h.providers, h.sessions, h.outputs, hresolve⟩
  | detail on =>
    cases name with
    | none => exact ⟨rfl, h⟩
    | some name =>
      cases engine'.session? (some name) with
      | none => exact ⟨rfl, h⟩
      | some session => exact ⟨rfl, h.changeSession name _ h.providers⟩
  | dialect dialect =>
    cases name with
    | none => exact ⟨rfl, h⟩
    | some name =>
      cases engine'.session? (some name) with
      | none => exact ⟨rfl, h⟩
      | some session =>
        by_cases haccepts : session.backend.accepts dialect = true
        · simp only [Session.setDialect_of_accepts haccepts]
          exact ⟨trivial, h.changeSession name _ h.providers⟩
        · simp only [Session.setDialect_of_refuses haccepts]
          exact ⟨trivial, h.changeSession name _ h.providers⟩

theorem withSession (h : AlikeBut changed engine engine') (name : Option String)
    {act act' : String → Session → Answer × Engine}
    (hact : ∀ named session, (act named session).1 = (act' named session).1 ∧
      AlikeBut changed (act named session).2 (act' named session).2) :
    (engine.withSession name act).1 = (engine'.withSession name act').1 ∧
      AlikeBut changed (engine.withSession name act).2 (engine'.withSession name act').2 := by
  unfold Engine.withSession
  rw [h.session? name]
  split
  · next named session _ => exact hact named session
  · exact ⟨rfl, h⟩

theorem openSession (h : AlikeBut changed engine engine') {other : Source}
    (hother : changed ≠ some other) (name : String) (target : Target) :
    (engine.step (.openSession name other target)).1 =
        (engine'.step (.openSession name other target)).1 ∧
      AlikeBut changed (engine.step (.openSession name other target)).2
        (engine'.step (.openSession name other target)).2 := by
  -- Opening asks the provider that the source means, which is the same in both.
  have hopens : (openTarget engine.host (engine'.resolve other) target).1 =
        (openTarget engine'.host (engine'.resolve other) target).1 ∧
      ∀ id, (openTarget engine.host (engine'.resolve other) target).2.provider id =
        (openTarget engine'.host (engine'.resolve other) target).2.provider id := by
    cases engine'.resolve other with
    | error cause =>
      obtain ⟨error, hopen⟩ := Session.openTarget_of_error cause target
      rw [hopen, hopen]
      exact ⟨rfl, h.providers⟩
    | ok id => exact (Session.openTarget_draws id target).alike h.providers
  unfold Engine.step
  dsimp only
  rw [h.resolve other hother]
  cases hopen : openTarget engine.host (engine'.resolve other) target with
  | mk result host =>
    cases hopen' : openTarget engine'.host (engine'.resolve other) target with
    | mk result' host' =>
      rw [hopen, hopen'] at hopens
      obtain ⟨rfl, hhost⟩ := hopens
      have hstill : AlikeBut changed { engine with host } { engine' with host := host' } :=
        ⟨hhost, h.sessions, h.outputs, h.resolve⟩
      cases result with
      | error error => exact ⟨rfl, hstill⟩
      | ok session => exact ⟨rfl, hstill.putSession name session⟩

theorem install (h : AlikeBut changed engine engine') (registry : String) (provider : ProviderId) :
    AlikeBut changed (engine.step (.install registry provider)).2
      (engine'.step (.install registry provider)).2 := by
  refine ⟨h.providers, h.sessions, h.outputs, fun other hother => ?_⟩
  cases other with
  | provider id => rfl
  | global => exact h.resolve .global hother
  | registry asked =>
    have hbefore : engine.current asked = engine'.current asked :=
      h.resolve (.registry asked) hother
    unfold current at hbefore
    by_cases hsame : asked = registry
    · simp only [Engine.step, Engine.resolve, current, Named.find?_insert, if_pos hsame]
    · simpa only [Engine.step, Engine.resolve, current, Named.find?_insert, if_neg hsame]
        using hbefore

theorem step_of_ne_registry (h : AlikeBut changed engine engine')
    (hop : ∀ source, changed = some source → ¬ op.OpensThrough source)
    (hasks : ∀ registry, op ≠ .registry registry) :
    (engine.step op).1 = (engine'.step op).1 ∧
      AlikeBut changed (engine.step op).2 (engine'.step op).2 := by
  cases op with
  | openSession name other target =>
    exact h.openSession (fun heq => hop other heq (.openSession name target)) name target
  | consult name decoder =>
    unfold Engine.step
    dsimp only
    rw [h.sessions]
    cases engine'.sessions.find? name with
    | none => exact ⟨rfl, h⟩
    | some session =>
      exact ⟨rfl, h.providers, rfl, h.outputs, h.resolve⟩
  | install registry provider => exact ⟨rfl, h.install registry provider⟩
  | registry registry => exact absurd rfl (hasks registry)
  | option name opt => exact h.applyOption name opt
  | errno name =>
    unfold Engine.step Engine.errno
    dsimp only
    rw [h.session? name]
    exact ⟨rfl, h⟩
  | close name =>
    unfold Engine.step
    dsimp only
    rcases h.endSession Session.provider_close name with
      ⟨hnone, hnone'⟩ | ⟨ended, ended', hsome, hsome', hended⟩
    · rw [hnone, hnone']
      exact ⟨rfl, h⟩
    · rw [hsome, hsome']
      exact ⟨rfl, hended⟩
  | dropSession name =>
    unfold Engine.step
    dsimp only
    rcases h.endSession Session.provider_drop name with
      ⟨hnone, hnone'⟩ | ⟨ended, ended', hsome, hsome', hended⟩
    · rw [hnone, hnone']
      exact ⟨rfl, h⟩
    · rw [hsome, hsome']
      exact ⟨rfl, hended⟩
  | disasm name out code address slots reuse =>
    exact h.withSession name fun named session =>
      h.runDisasm named session out code address slots reuse
  | disasmWithin name out code address start count =>
    exact h.withSession name fun named session =>
      h.runDisasmWithin named session out code address start count
  | disasmAll name out code address count =>
    exact h.withSession name fun named session =>
      h.runDisasmAll named session out code address count
  | free out =>
    have hdropped := h.dropOutput out
    unfold Engine.step
    dsimp only
    rw [h.outputs]
    cases engine'.outputs.find? out with
    | none => exact ⟨rfl, h⟩
    | some output => exact ⟨rfl, hdropped⟩
  | overwrite out index address size => exact h.replaceSlot out index [.blank address size]
  | discard out index => exact h.replaceSlot out index []
  | records out =>
    unfold Engine.step
    dsimp only
    rw [h.outputs]
    cases engine'.outputs.find? out with
    | none => exact ⟨rfl, h⟩
    | some output => exact ⟨rfl, h⟩
  | format out format base =>
    unfold Engine.step
    dsimp only
    rw [h.outputs]
    exact ⟨rfl, h⟩
  | query name out index query =>
    refine h.withSession name fun named session => ?_
    rw [h.insn? out index]
    cases engine'.insn? out index with
    | none => exact ⟨rfl, h⟩
    | some insn => exact ⟨rfl, h.changeSession named _ h.providers⟩
  | insnQuery out index query =>
    unfold Engine.step
    dsimp only
    rw [h.insn? out index]
    cases engine'.insn? out index with
    | none => exact ⟨rfl, h⟩
    | some insn => exact ⟨rfl, h⟩
  | state name | regName name | insnName name | tableName name =>
    exact h.withSession name fun _ _ => ⟨rfl, h⟩

/-- Whoever does not open a session through the one source leaves the engines alike, and is answered
alike, unless the question was what is installed there. -/
theorem step (h : AlikeBut changed engine engine')
    (hop : ∀ source, changed = some source → ¬ op.OpensThrough source) :
    ((∀ source, changed = some source → ¬ op.Inspects source) →
      (engine.step op).1 = (engine'.step op).1) ∧
    AlikeBut changed (engine.step op).2 (engine'.step op).2 := by
  by_cases hinspects : ∃ registry, op = .registry registry
  · obtain ⟨registry, rfl⟩ := hinspects
    refine ⟨fun hquiet => ?_, h⟩
    have hcurrent : engine.current registry = engine'.current registry :=
      h.resolve (.registry registry) fun heq => hquiet _ heq (.registry registry)
    unfold Engine.step
    dsimp only
    rw [hcurrent]
  · obtain ⟨hanswer, hafter⟩ :=
      h.step_of_ne_registry hop fun registry heq => hinspects ⟨registry, heq⟩
    exact ⟨fun _ => hanswer, hafter⟩

/-- Once something is installed at the one source in both engines, they differ no more. -/
theorem step_of_installs (h : AlikeBut (some source) engine engine') (hop : op.Installs source) :
    (engine.step op).1 = (engine'.step op).1 ∧
      AlikeBut none (engine.step op).2 (engine'.step op).2 := by
  have hopens : ∀ other, some source = some other → ¬ op.OpensThrough other := by
    rintro other - ⟨name, target⟩
    cases hop
  have hasks : ∀ registry, op ≠ .registry registry := by
    rintro registry rfl
    cases hop
  obtain ⟨hanswer, hafter⟩ := h.step_of_ne_registry hopens hasks
  refine ⟨hanswer, hafter.settled ?_⟩
  cases hop with
  | everywhere name provider =>
    have hinstalled : ∀ engine : Engine,
        (engine.applyOption name (.memory provider)).2.installed = some provider := by
      intro engine
      unfold Engine.applyOption
      cases engine.session? name <;> rfl
    simp only [Engine.step, Engine.resolve, hinstalled]
  | locally registry provider =>
    simp only [Engine.step, Engine.resolve, current, Named.find?_insert, if_true]

theorem run_of_none (h : AlikeBut none engine engine') (ops : List Op) :
    engine.answers ops = engine'.answers ops ∧
      AlikeBut none (engine.run ops) (engine'.run ops) := by
  induction ops generalizing engine engine' with
  | nil => exact ⟨rfl, h⟩
  | cons op ops ih =>
    obtain ⟨hanswer, hnext⟩ := h.step (by rintro _ ⟨⟩)
    obtain ⟨hanswers, hlast⟩ := ih hnext
    exact ⟨by rw [answers, answers, hanswer (by rintro _ ⟨⟩), hanswers], hlast⟩

/-- The engines stay alike through a run that spares the one source, and all questions but those
about the source itself are answered alike. -/
theorem run (h : AlikeBut (some source) engine engine') {ops : List Op}
    (hops : Op.Spare source ops) :
    (∀ (index : Nat) (op : Op), ops[index]? = some op → ¬ op.Inspects source →
      (engine.answers ops)[index]? = (engine'.answers ops)[index]?) ∧
    AlikeBut (some source) (engine.run ops) (engine'.run ops) := by
  -- Up to the next install at the source the two differ there, and from then on nowhere.
  induction hops generalizing engine engine' with
  | nil => exact ⟨fun _ _ _ _ => rfl, h⟩
  | @installed op ops hop =>
    obtain ⟨hanswer, hnext⟩ := h.step_of_installs hop
    obtain ⟨hanswers, hlast⟩ := hnext.run_of_none ops
    refine ⟨fun index _ _ _ => ?_, hlast.unsettled _⟩
    rw [answers, answers, hanswer, hanswers]
  | @cons op ops hop _ ih =>
    obtain ⟨hanswer, hnext⟩ := h.step fun other heq => Option.some.inj heq ▸ hop
    obtain ⟨hanswers, hlast⟩ := ih hnext
    refine ⟨fun index other hother hquiet => ?_, hlast⟩
    cases index with
    | zero =>
      obtain rfl : op = other := Option.some.inj hother
      have hsame := hanswer fun other heq => Option.some.inj heq ▸ hquiet
      rw [answers, answers, hsame, List.getElem?_cons_zero, List.getElem?_cons_zero]
    | succ index => exact hanswers index other hother hquiet

end AlikeBut

/-- An install changes no provider, no session and no result, and one source at most. -/
theorem alikeBut_of_installs (hop : op.Installs source) (engine : Engine) :
    (engine.step op).2.host.providers = engine.host.providers ∧
      AlikeBut (some source) (engine.step op).2 engine := by
  cases hop with
  | everywhere name provider =>
    have hresolve : ∀ other, some Source.global ≠ some other →
        ({ engine with installed := some provider } : Engine).resolve other =
          engine.resolve other := by
      intro other hother
      cases other with
      | global => exact absurd rfl hother
      | provider id => rfl
      | registry registry => rfl
    unfold step applyOption
    dsimp only
    cases engine.session? name with
    | none => exact ⟨rfl, fun _ => rfl, rfl, rfl, hresolve⟩
    | some session => exact ⟨rfl, fun _ => rfl, rfl, rfl, hresolve⟩
  | locally registry provider =>
    refine ⟨rfl, fun _ => rfl, rfl, rfl, fun other hother => ?_⟩
    cases other with
    | provider id => rfl
    | global => rfl
    | registry asked =>
      have hne : asked ≠ registry := fun heq => hother (heq ▸ rfl)
      simp only [Engine.step, Engine.resolve, current, Named.find?_insert, if_neg hne]

theorem leaves_forget (op : Op) (session : Session) :
    (op.leaves session).map Session.forget = op.leaves session.forget := by
  cases op with
  | option name opt =>
    cases opt with
    | dialect dialect =>
      have haccepts : session.forget.backend.accepts dialect = session.backend.accepts dialect :=
        rfl
      simp only [Op.leaves, haccepts, Option.map_some]
      split <;> rfl
    | memory | detail => rfl
  | _ => rfl

/-- What becomes of a session, but for the error that it remembers, is up to the operations and to
nothing else in the engine. -/
theorem forget_of_step (hopen : ∀ source target, op ≠ .openSession name source target)
    (h : (engine.sessions.find? name).map Session.forget =
      (engine'.sessions.find? name).map Session.forget) :
    ((engine.step op).2.sessions.find? name).map Session.forget =
      ((engine'.step op).2.sessions.find? name).map Session.forget := by
  by_cases hsubject : op.subject = some name
  · cases hfind : engine.sessions.find? name with
    | none =>
      have hfind' : engine'.sessions.find? name = none := by
        rw [hfind] at h
        exact Option.map_eq_none_iff.1 h.symm
      rw [step_absent hfind hopen, step_absent hfind' hopen]
    | some session =>
      rw [hfind] at h
      obtain ⟨session', hfind', hforget⟩ := Option.map_eq_some_iff.1 h.symm
      obtain ⟨error, hafter⟩ := find?_of_step hfind hsubject hopen
      obtain ⟨error', hafter'⟩ := find?_of_step hfind' hsubject hopen
      rw [hafter, hafter', Option.map_map, Option.map_map]
      have hleaves : (op.leaves session).map Session.forget =
          (op.leaves session').map Session.forget := by
        rw [leaves_forget, leaves_forget, hforget]
      exact hleaves
  · rw [find?_of_step_elsewhere hsubject, find?_of_step_elsewhere hsubject, h]

theorem forget_of_run {ops : List Op}
    (hopen : ∀ op ∈ ops, ∀ source target, op ≠ .openSession name source target)
    (h : (engine.sessions.find? name).map Session.forget =
      (engine'.sessions.find? name).map Session.forget) :
    ((engine.run ops).sessions.find? name).map Session.forget =
      ((engine'.run ops).sessions.find? name).map Session.forget := by
  induction ops generalizing engine engine' with
  | nil => exact h
  | cons op ops ih =>
    apply ih fun op hmem => hopen op (List.mem_cons_of_mem _ hmem)
    exact forget_of_step (hopen op List.mem_cons_self) h

theorem reset_of_run (h : engine.Sound) (ops : List Op) (id : ProviderId) :
    ((engine.run ops).host.provider id).reset = (engine.host.provider id).reset :=
  (run_moves h ops).exchange.reset id

theorem answersAs_of_forget {session' : Session} (h : engine.Sound)
    (hfind : engine.sessions.find? name = some session)
    (hforget : session.forget = session'.forget)
    (hsame : (engine'.host.provider session.provider).reset =
      (engine.host.provider session.provider).reset)
    (hmemory : engine.host.provider session.provider = engine'.host.provider session.provider ∨
      (engine.host.provider session.provider).NeverRefuses) :
    session.AnswersAs engine.host session' engine'.host := by
  have hhosts : session.AnswersAs engine.host session engine'.host := by
    rcases hmemory with hstate | hfree
    · exact .of_provider hstate
    · exact .of_neverRefuses (sound_of_find? h hfind).backend.keepsSize hfree hsame
  have hsessions : session.AnswersAs engine'.host session' engine'.host := by
    have hfirst := Session.AnswersAs.of_forget session engine'.host
    rw [hforget] at hfirst
    exact hfirst.symm.trans (.of_forget session' engine'.host)
  exact hhosts.trans hsessions

/-- Engines that were alike, after a run in which anything may be opened but under one name: what
they have there answers alike where it gets the same memory. -/
theorem answersAs_of_alikeBut (h : engine.Sound) (h' : engine'.Sound)
    (halike : AlikeBut changed engine' engine) {later : List Op}
    (hopen : ∀ op ∈ later, ∀ source target, op ≠ .openSession name source target) :
    ((engine'.run later).sessions.find? name).map Session.forget =
        ((engine.run later).sessions.find? name).map Session.forget ∧
      ∀ session session', (engine'.run later).sessions.find? name = some session →
        (engine.run later).sessions.find? name = some session' →
        ((engine'.run later).host.provider session.provider =
            (engine.run later).host.provider session.provider ∨
          (engine.host.provider session.provider).NeverRefuses) →
        session.AnswersAs (engine'.run later).host session' (engine.run later).host := by
  have hforget : ((engine'.run later).sessions.find? name).map Session.forget =
      ((engine.run later).sessions.find? name).map Session.forget :=
    forget_of_run hopen (by rw [halike.sessions])
  refine ⟨hforget, ?_⟩
  intro session session' hfind hfind' hmemory
  rw [hfind, hfind'] at hforget
  have hreset : ((engine'.run later).host.provider session.provider).reset =
      (engine.host.provider session.provider).reset := by
    rw [reset_of_run h', halike.providers]
  have hreset' : ((engine.run later).host.provider session.provider).reset =
      (engine.host.provider session.provider).reset := reset_of_run h later _
  apply answersAs_of_forget (run_moves h' later).sound hfind (Option.some.inj hforget)
    (hreset'.trans hreset.symm)
  rcases hmemory with hstate | hfree
  · exact .inl hstate
  · exact .inr fun other hother => hfree other (hother.trans hreset)

/-- A session that was opened has the provider that its source meant. -/
theorem resolve_of_opened {target : Target}
    (h : (engine.step (.openSession name source target)).1 = .session session) :
    engine.resolve source = .ok session.provider ∧
      (engine.step (.openSession name source target)).2.sessions.find? name = some session := by
  rcases engine.step_openSession name source target with ⟨opened, host, hopen, hstep⟩ |
    ⟨error, host, -, hstep⟩
  · rw [hstep] at h ⊢
    cases h
    refine ⟨?_, by rw [putSession, Named.find?_insert, if_pos rfl]⟩
    cases hsource : engine.resolve source with
    | error cause =>
      obtain ⟨error, herror⟩ := Session.openTarget_of_error cause target
      rw [hsource, herror] at hopen
      cases hopen
    | ok id =>
      have hresult := (Session.openTarget_draws id target).result engine.host
      rw [← hsource, hopen] at hresult
      have hprovider : session.provider = id :=
        hresult session.grant (List.mem_append_right _ List.mem_cons_self)
      rw [hprovider]
  · rw [hstep] at h
    cases h

/-- A session keeps, as long as it is open, the provider that its source meant when it was opened,
and all that is decoded with it and all that it held concerns no other: what a decode comes to
depends on the state of that provider alone. Every operation asks one provider at most, and what is
given back goes to where it is from. An install changes no provider, no session and no result.
Whatever is done afterwards, a session is the same with it and without it, but for the error that it
remembers, and a call comes to the same where its provider is in the same state or refuses nothing.
No answer changes at all up to an opening through the source that the install is about, or for good
if something is installed there again before any. -/
theorem providers_captured (providers : List Provider) (ops : List Op) :
    let engine := (start providers).run ops
    (∀ name source target session,
      (engine.step (.openSession name source target)).1 = .session session →
      engine.resolve source = .ok session.provider ∧
      ∀ later : List Op, (∀ op ∈ later, ∀ source target, op ≠ .openSession name source target) →
        ∀ found, ((engine.step (.openSession name source target)).2.run later).sessions.find? name =
          some found → found.provider = session.provider) ∧
    (∀ name session, engine.sessions.find? name = some session →
      session.KeepsTo session.provider) ∧
    (∀ op, ∃ freed granted, Trades (engine.asked op) engine freed (engine.step op).2 granted) ∧
    (∀ source install, Op.Installs source install →
      (engine.step install).2.host.providers = engine.host.providers ∧
      (engine.step install).2.sessions = engine.sessions ∧
      (engine.step install).2.outputs = engine.outputs ∧
      (∀ (name : String) (later : List Op),
        (∀ op ∈ later, ∀ source target, op ≠ .openSession name source target) →
        let changed := (engine.step install).2.run later
        let unchanged := engine.run later
        (changed.sessions.find? name).map Session.forget =
          (unchanged.sessions.find? name).map Session.forget ∧
        ∀ session session', changed.sessions.find? name = some session →
          unchanged.sessions.find? name = some session' →
          (changed.host.provider session.provider = unchanged.host.provider session.provider ∨
            (engine.host.provider session.provider).NeverRefuses) →
          session.AnswersAs changed.host session' unchanged.host) ∧
      ∀ later : List Op, Op.Spare source later →
        (∀ (index : Nat) (op : Op), later[index]? = some op → ¬ op.Inspects source →
          ((engine.step install).2.answers later)[index]? = (engine.answers later)[index]?) ∧
        AlikeBut (some source) ((engine.step install).2.run later) (engine.run later)) := by
  intro engine
  have hsound : engine.Sound := (run_moves (sound_start providers) ops).sound
  refine ⟨?_, ?_, ?_, ?_⟩
  · intro name source target session hopened
    obtain ⟨hsource, hfind⟩ := resolve_of_opened hopened
    refine ⟨hsource, ?_⟩
    intro later hlater found hfound
    obtain ⟨before, hbefore, hgrant⟩ := grant_of_run hlater hfound
    rw [hfind] at hbefore
    cases hbefore
    exact congrArg Grant.provider hgrant
  · intro name session hfind
    exact (sound_of_find? hsound hfind).keepsTo
  · exact step_trades hsound
  · intro source install hinstall
    obtain ⟨hproviders, halike⟩ := alikeBut_of_installs hinstall engine
    refine ⟨hproviders, halike.sessions, halike.outputs, ?_, fun later => halike.run⟩
    intro name later hopen
    exact answersAs_of_alikeBut hsound (step_moves hsound install).sound halike hopen

/-- An install on a provider that a session lives on already. Its decodes come to the same when a
session is opened there through the registry, and every answer is the same when something else is
installed in the registry before. -/
theorem providers_captured_reinstalled :
    let engine := (start [.tracking {}, .tracking {}]).run [.openSession "a" (.provider 1) .toy]
    let install : Op := .install "r" 1
    let shared : List Op := [.openSession "b" (.registry "r") .toy,
      .disasmAll (some "b") "p" [0x90] 0 0]
    let spare : List Op := [.disasmAll (some "a") "o" [0x90] 0 0, .install "r" 2] ++ shared
    let changed := (engine.step install).2.run shared
    let unchanged := engine.run shared
    Op.Installs (.registry "r") install ∧ Op.Spare (.registry "r") spare ∧
      (changed.host.provider 1).liveBytes = 456 ∧ (unchanged.host.provider 1).liveBytes = 128 ∧
      (∃ session session', changed.sessions.find? "a" = some session ∧
        unchanged.sessions.find? "a" = some session' ∧
        session.AnswersAs changed.host session' unchanged.host) ∧
      (∀ (index : Nat) (op : Op), spare[index]? = some op →
        ((engine.step install).2.answers spare)[index]? = (engine.answers spare)[index]?) ∧
      (engine.answers spare).map Answer.error? = [none, none, none, none] := by
  intro engine install shared spare changed unchanged
  have hinstalls : Op.Installs (.registry "r") install := .locally "r" 1
  have hdecodes : ¬ Op.OpensThrough (.registry "r") (.disasmAll (some "a") "o" [0x90] 0 0) := by
    rintro ⟨⟩
  have hspare : Op.Spare (.registry "r") spare := .cons hdecodes (.installed (.locally "r" 2))
  have hquiet : ∀ op ∈ spare, ¬ op.Inspects (.registry "r") := by
    rintro op hmem ⟨⟩
    simp [spare, shared] at hmem
  have hopen : ∀ op ∈ shared, ∀ source target, op ≠ .openSession "a" source target := by
    rintro op hmem source target rfl
    simp [shared] at hmem
  obtain ⟨-, -, -, hcaptured⟩ := providers_captured [.tracking {}, .tracking {}]
    [.openSession "a" (.provider 1) .toy]
  obtain ⟨-, -, -, hlater, hspared⟩ := hcaptured (.registry "r") install hinstalls
  have hprovider : (changed.sessions.find? "a").map Session.provider = some 1 := by
    decide +kernel
  have hopened : (unchanged.sessions.find? "a").isSome = true := by decide +kernel
  obtain ⟨session, hfind, hown⟩ := Option.map_eq_some_iff.1 hprovider
  obtain ⟨session', hfind'⟩ := Option.isSome_iff_exists.1 hopened
  have hfree : (engine.host.provider session.provider).NeverRefuses := by
    rw [hown]
    exact Provider.neverRefuses_unlimited rfl
  have hanswers := (hlater "a" shared hopen).2 session session' hfind hfind' (.inr hfree)
  refine ⟨hinstalls, hspare, by decide +kernel, by decide +kernel,
    ⟨session, session', hfind, hfind', hanswers⟩, ?_, by decide +kernel⟩
  intro index op hop
  exact (hspared spare hspare).1 index op hop (hquiet op (List.mem_of_getElem? hop))

/-- What a session takes that is opened through a registry is refused to the others on the provider
that was installed there. So an install can reach a session that was open before it. -/
theorem install_reaches_open_session :
    let engine := (start [.tracking { policy := .limit 400 }]).run
      [.openSession "a" (.provider 1) .toy]
    let install : Op := .install "r" 1
    let later : List Op :=
      [.openSession "b" (.registry "r") (.family .x86 .mode32 fun _ => .silent),
        .disasmAll (some "a") "o" [0x90] 0 0]
    Op.Installs (.registry "r") install ∧
      (engine.sessions.find? "a").map Session.provider = some 1 ∧
      ((engine.step install).2.answers later)[1]?.map Answer.error? =
        some (some .outOfMemory) ∧
      (engine.answers later)[1]?.map Answer.error? = some none := by
  intro engine install later
  exact ⟨.locally "r" 1, by decide +kernel, by decide +kernel, by decide +kernel⟩

end Engine

end Disassembly
