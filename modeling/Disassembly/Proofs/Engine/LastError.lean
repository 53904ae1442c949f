import Disassembly.Proofs.Engine.Sessions
/-!
# The error a session remembers

What a session remembers is the outcome of the last decode or query that was asked of it, or the
refusal of an option after that. A machine that only sees what operations come to, and never what
a session remembers, tells it after every run. The sessions under other names have no part in it.
-/
namespace Disassembly

/-- Operations on a session that come to no outcome of their own: looking at it, asking it for a
name, and changing the decoder behind it. -/
inductive Op.Quiet (name : String) : Op → Prop where
  | errno : Quiet name (.errno (some name))
  | state : Quiet name (.state (some name))
  | regName (reg : UInt32) : Quiet name (.regName (some name) reg)
  | insnName (id : UInt32) : Quiet name (.insnName (some name) id)
  | tableName (reg : UInt32) : Quiet name (.tableName (some name) reg)
  | consult (decoder : Arch → Decoder) : Quiet name (.consult name decoder)

inductive Event where
  /-- A new session has taken the name. -/
  | opened
  | ended
  /-- A decode or a query was asked and came to this. -/
  | outcome (error : Option Error)
  /-- An option was refused. -/
  | objection (error : Error)
  | silence

/-- The machine: what is remembered under a name, if a session is there at all. -/
def Event.next (memory : Option (Option Error)) : Event → Option (Option Error)
  | opened => some none
  | ended => none
  | outcome error => some error
  | objection error => some (some error)
  | silence => memory

namespace Engine

variable {engine : Engine} {name other out : String} {session : Session} {op : Op}

theorem answer_runDisasmAll (engine : Engine) (name : String) (session : Session) (out : String)
    (code : List UInt8) (address : UInt64) (count : Nat) :
    (∃ instructions, (engine.runDisasmAll name session out code address count).1 =
      .handedOver instructions) ∨
    ∃ error, (engine.runDisasmAll name session out code address count).1 = .refused error := by
  unfold runDisasmAll Session.disasmAll
  cases session.collect engine.host code address count with
  | mk result host =>
    cases result with
    | error error => exact .inr ⟨error, rfl⟩
    | ok instructions => exact .inl ⟨instructions, rfl⟩

def remembered (engine : Engine) (name : String) : Option (Option Error) :=
  (engine.sessions.find? name).map Session.lastError

/-- What an operation tells the session under a name, by what can be seen of it: its answer, a
refused payload, the record's own answer to a query. -/
inductive Observed (engine : Engine) (name : String) : Op → Event → Prop where
  | opened {source : Source} {target : Target} {session : Session} :
      (engine.step (.openSession name source target)).1 = .session session →
      Observed engine name (.openSession name source target) .opened
  | notOpened {source : Source} {target : Target} {error : Error} :
      (engine.step (.openSession name source target)).1 = .refused error →
      Observed engine name (.openSession name source target) .silence
  | ended {op : Op} : op.EndsSession name → Observed engine name op .ended
  | filled {session : Session} {out : String} {code : List UInt8} {address : UInt64}
      {slots : Nat} {reuse : Bool} {error : Option Error} :
      engine.sessions.find? name = some session →
      (∀ refusal, error = some refusal ↔
        Session.RefusedIn session (engine.slotsFor out slots reuse).1.host code address
          (engine.slotsFor out slots reuse).2 refusal) →
      Observed engine name (.disasm (some name) out code address slots reuse) (.outcome error)
  | filledWithin {session : Session} {out : String} {insns : List Insn} {code : List UInt8}
      {address : UInt64} {start count : Nat} {error : Option Error} :
      engine.sessions.find? name = some session → engine.outputs.find? out = some (.slots insns) →
      (∀ refusal, error = some refusal ↔
        Session.RefusedIn session engine.host code address (slotsWithin insns start count)
          refusal) →
      Observed engine name (.disasmWithin (some name) out code address start count)
        (.outcome error)
  | notFilled {out : String} {code : List UInt8} {address : UInt64} {start count : Nat} :
      (∀ insns, engine.outputs.find? out ≠ some (.slots insns)) →
      Observed engine name (.disasmWithin (some name) out code address start count) .silence
  | handedOver {out : String} {code : List UInt8} {address : UInt64} {count : Nat}
      {instructions : Instructions} :
      (engine.step (.disasmAll (some name) out code address count)).1 =
        .handedOver instructions →
      Observed engine name (.disasmAll (some name) out code address count) (.outcome none)
  | aborted {out : String} {code : List UInt8} {address : UInt64} {count : Nat} {error : Error} :
      (engine.step (.disasmAll (some name) out code address count)).1 = .refused error →
      Observed engine name (.disasmAll (some name) out code address count) (.outcome (some error))
  | asked {session : Session} {out : String} {index : Nat} {insn : Insn} {query : Query} :
      engine.sessions.find? name = some session → engine.insn? out index = some insn →
      Observed engine name (.query (some name) out index query)
        (.outcome (session.verdict insn query))
  | notAsked {out : String} {index : Nat} {query : Query} : engine.insn? out index = none →
      Observed engine name (.query (some name) out index query) .silence
  | accepted {opt : Opt ProviderId} : (engine.step (.option (some name) opt)).1 = .done →
      Observed engine name (.option (some name) opt) .silence
  | objected {session : Session} {opt : Opt ProviderId} {error : Error} :
      engine.sessions.find? name = some session →
      (engine.step (.option (some name) opt)).1 = .refused error →
      Observed engine name (.option (some name) opt) (.objection error)
  | quiet {op : Op} : op.Quiet name → Observed engine name op .silence
  | absent {op : Op} : engine.sessions.find? name = none →
      (∀ source target, op ≠ .openSession name source target) → Observed engine name op .silence
  | elsewhere {op : Op} : op.subject ≠ some name → Observed engine name op .silence

theorem lastError_of_assemble {arch : Arch} {mode : Mode} {host host' : Host} {id : ProviderId}
    {wire : Host → ProviderId → Except Error Capabilities × Host}
    (h : Session.assemble arch mode host id wire = (.ok session, host')) :
    session.lastError = none := by
  unfold Session.assemble at h
  split at h
  · cases h
  · split at h
    · cases h
    · cases h
      rfl

theorem lastError_of_ofConfig {config : SessionConfig} {decoder : Decoder} {host host' : Host}
    {id : ProviderId} (h : Session.ofConfig config decoder host id = (.ok session, host')) :
    session.lastError = none := by
  unfold Session.ofConfig at h
  split at h
  · cases h
  · next opened middle hopen =>
    have hopened : opened.lastError = none := lastError_of_assemble hopen
    dsimp only [Session.setDetail] at h
    split at h
    · cases h
      exact hopened
    · by_cases haccepts : Backend.accepts { opened with detail := config.detail }.backend
          config.dialect = true
      · rw [Session.setDialect_of_accepts haccepts] at h
        cases h
        exact hopened
      · rw [Session.setDialect_of_refuses haccepts] at h
        cases h

theorem lastError_of_openTarget {host host' : Host} {provider : Except Error ProviderId}
    {target : Target} (h : openTarget host provider target = (.ok session, host')) :
    session.lastError = none := by
  unfold openTarget at h
  split at h
  · unfold openRaw at h
    split at h
    · cases h
    · cases h
    · cases h
    · exact lastError_of_assemble h
  · cases h
  · exact lastError_of_assemble h
  · exact lastError_of_ofConfig h
  · exact lastError_of_assemble h
  · exact lastError_of_assemble h

theorem refused_fill (h : session.Sound) (host : Host) (code : List UInt8) (address : UInt64)
    (slots : List Insn) (refusal : Error) :
    (session.fill host code address slots).1.error = some refusal ↔
      Session.RefusedIn session host code address slots refusal :=
  (Session.fill_spec h.backend.keepsSize _ slots host code address fun _ _ => rfl).refused refusal

/-- Who sees which refusals there are knows what a fixed decode reports. -/
theorem error_fill (h : session.Sound) {host : Host} {code : List UInt8} {address : UInt64}
    {slots : List Insn} {error : Option Error}
    (herror : ∀ refusal, error = some refusal ↔
      Session.RefusedIn session host code address slots refusal) :
    (session.fill host code address slots).1.error = error := by
  apply Option.ext
  intro refusal
  rw [refused_fill h, herror]

theorem step_quiet (h : op.Quiet name) :
    (engine.step op).2.remembered name = engine.remembered name := by
  have hact : ∀ answer : String → Session → Answer,
      (engine.withSession (some name) fun named session => (answer named session, engine)).2 =
        engine := by
    intro answer
    unfold withSession
    split <;> rfl
  cases h with
  | errno => rfl
  | state => exact congrArg (remembered · name) (hact _)
  | regName reg => exact congrArg (remembered · name) (hact _)
  | insnName id => exact congrArg (remembered · name) (hact _)
  | tableName reg => exact congrArg (remembered · name) (hact _)
  | consult decoder =>
    unfold step remembered
    dsimp only
    split
    · next session hfind => rw [Named.find?_insert, if_pos rfl, hfind]; rfl
    · rfl

theorem remembered_disasmAll {out : String} {code : List UInt8} {address : UInt64} {count : Nat}
    {answer : Answer} (hne : answer ≠ .noSession)
    (hanswer : (engine.step (.disasmAll (some name) out code address count)).1 = answer) :
    (engine.step (.disasmAll (some name) out code address count)).2.remembered name =
      some answer.error? := by
  unfold step at hanswer ⊢
  dsimp only at hanswer ⊢
  cases hfind : engine.sessions.find? name with
  | none =>
    rw [withSession_of_none hfind] at hanswer
    exact absurd hanswer.symm hne
  | some session =>
    rw [withSession_of_find? hfind] at hanswer ⊢
    rw [remembered, sessions_runDisasmAll, Named.find?_insert, if_pos rfl, hanswer]
    rfl

theorem remembered_of_step (h : engine.Sound) {event : Event}
    (hobserved : Observed engine name op event) :
    (engine.step op).2.remembered name = event.next (engine.remembered name) := by
  cases hobserved with
  | @opened source target session hanswer =>
    rcases engine.step_openSession name source target with ⟨other, host, hopen, hstep⟩ |
      ⟨error, host, -, hstep⟩
    · rw [remembered, hstep, putSession, Named.find?_insert, if_pos rfl, Option.map_some,
        lastError_of_openTarget hopen]
      rfl
    · rw [hstep] at hanswer
      cases hanswer
  | @notOpened source target error hanswer =>
    rcases engine.step_openSession name source target with ⟨other, host, -, hstep⟩ |
      ⟨error, host, -, hstep⟩
    · rw [hstep] at hanswer
      cases hanswer
    · rw [hstep]
      rfl
  | ended hends =>
    rw [remembered, sessions_of_endsSession hends, Named.find?_erase, if_pos rfl]
    rfl
  | @filled session out code address slots reuse error hfind herror =>
    rw [remembered, step, withSession_of_find? hfind, sessions_runDisasm, Named.find?_insert,
      if_pos rfl, error_fill (sound_of_find? h hfind) herror]
    rfl
  | @filledWithin session out insns code address start count error hfind hkept herror =>
    rw [remembered, step, withSession_of_find? hfind, runDisasmWithin_of_find? hkept,
      sessions_decodeInto, Named.find?_insert, if_pos rfl,
      error_fill (sound_of_find? h hfind) herror]
    rfl
  | @notFilled out code address start count hkept =>
    rw [step]
    unfold withSession
    split
    · dsimp only
      rw [runDisasmWithin_of_forall_ne hkept]
      rfl
    · rfl
  | handedOver hanswer => exact remembered_disasmAll (by rintro ⟨⟩) hanswer
  | aborted hanswer => exact remembered_disasmAll (by rintro ⟨⟩) hanswer
  | @asked session out index insn query hfind hinsn =>
    rw [remembered, step, withSession_of_find? hfind]
    simp only [hinsn, Named.find?_insert, if_true, Session.snd_askSession]
    rfl
  | @notAsked out index query hinsn =>
    rw [step]
    unfold withSession
    split
    · rw [hinsn]
      rfl
    · rfl
  | @accepted opt hanswer =>
    cases hfind : engine.sessions.find? name with
    | none =>
      have hsession : engine.session? (some name) = none := hfind
      rw [remembered, remembered, step, sessions_applyOption_of_none opt hsession]
      rfl
    | some session =>
      rcases applyOption_of_find? hfind opt with ⟨-, changed, hsame, -, hother⟩ | ⟨error, hother, -⟩
      · rw [remembered, remembered, step, hother, if_pos rfl, hfind, Option.map_some, hsame]
        rfl
      · rw [step, hother] at hanswer
        cases hanswer
  | @objected session opt error hfind hanswer =>
    rcases applyOption_of_find? hfind opt with ⟨hdone, -⟩ | ⟨other, hrefused, -, hother⟩
    · rw [step, hdone] at hanswer
      cases hanswer
    · rw [step, hrefused] at hanswer
      cases hanswer
      rw [remembered, step, hother, if_pos rfl]
      rfl
  | quiet hquiet => exact step_quiet hquiet
  | absent hnone hopen =>
    rw [remembered, remembered, step_absent hnone hopen, hnone]
    rfl
  | elsewhere hsubject =>
    rw [remembered, find?_of_step_elsewhere hsubject]
    rfl

theorem exists_observed (h : engine.Sound) (name : String) (op : Op) :
    ∃ event, Observed engine name op event := by
  by_cases hsubject : op.subject = some name
  · by_cases hopen : ∃ source target, op = .openSession name source target
    · obtain ⟨source, target, rfl⟩ := hopen
      rcases engine.step_openSession name source target with ⟨session, host, -, hstep⟩ |
        ⟨error, host, -, hstep⟩
      · exact ⟨_, .opened (congrArg Prod.fst hstep)⟩
      · exact ⟨_, .notOpened (congrArg Prod.fst hstep)⟩
    · cases hfind : engine.sessions.find? name with
      | none => exact ⟨_, .absent hfind fun source target heq => hopen ⟨source, target, heq⟩⟩
      | some session =>
        cases op with
        | openSession named source target =>
          cases hsubject
          exact absurd ⟨source, target, rfl⟩ hopen
        | consult named decoder =>
          cases hsubject
          exact ⟨_, .quiet (.consult decoder)⟩
        | option named opt =>
          cases hsubject
          rcases applyOption_of_find? hfind opt with ⟨hdone, -⟩ | ⟨error, hrefused, -⟩
          · exact ⟨_, .accepted hdone⟩
          · exact ⟨_, .objected hfind hrefused⟩
        | close named =>
          cases hsubject
          exact ⟨_, .ended (.inl rfl)⟩
        | dropSession named =>
          cases hsubject
          exact ⟨_, .ended (.inr rfl)⟩
        | errno named =>
          cases hsubject
          exact ⟨_, .quiet .errno⟩
        | state named =>
          cases hsubject
          exact ⟨_, .quiet .state⟩
        | regName named reg =>
          cases hsubject
          exact ⟨_, .quiet (.regName reg)⟩
        | insnName named id =>
          cases hsubject
          exact ⟨_, .quiet (.insnName id)⟩
        | tableName named reg =>
          cases hsubject
          exact ⟨_, .quiet (.tableName reg)⟩
        | disasm named out code address slots reuse =>
          cases hsubject
          exact ⟨_, .filled hfind (refused_fill (sound_of_find? h hfind) _ _ _ _)⟩
        | disasmWithin named out code address start count =>
          cases hsubject
          by_cases hkept : ∃ insns, engine.outputs.find? out = some (.slots insns)
          · obtain ⟨insns, hkept⟩ := hkept
            exact ⟨_, .filledWithin hfind hkept (refused_fill (sound_of_find? h hfind) _ _ _ _)⟩
          · exact ⟨_, .notFilled fun insns heq => hkept ⟨insns, heq⟩⟩
        | disasmAll named out code address count =>
          cases hsubject
          have hanswer : (engine.step (.disasmAll (some name) out code address count)).1 =
              (engine.runDisasmAll name session out code address count).1 := by
            rw [step, withSession_of_find? hfind]
          rcases answer_runDisasmAll engine name session out code address count with
            ⟨instructions, hok⟩ | ⟨error, herror⟩
          · exact ⟨_, .handedOver (hanswer.trans hok)⟩
          · exact ⟨_, .aborted (hanswer.trans herror)⟩
        | query named out index query =>
          cases hsubject
          cases hinsn : engine.insn? out index with
          | none => exact ⟨_, .notAsked hinsn⟩
          | some insn => exact ⟨_, .asked hfind hinsn⟩
        | install | registry | free | overwrite | discard | records | format | insnQuery =>
          cases hsubject
  · exact ⟨_, .elsewhere hsubject⟩

/-- What a run tells the session under a name, one operation after the other. -/
inductive Observations (name : String) : Engine → List Op → List Event → Prop where
  | nil {engine : Engine} : Observations name engine [] []
  | cons {engine : Engine} {op : Op} {ops : List Op} {event : Event} {events : List Event} :
      Observed engine name op event → Observations name (engine.step op).2 ops events →
      Observations name engine (op :: ops) (event :: events)

theorem exists_observations (h : engine.Sound) (name : String) (ops : List Op) :
    ∃ events, Observations name engine ops events := by
  induction ops generalizing engine with
  | nil => exact ⟨[], .nil⟩
  | cons op ops ih =>
    obtain ⟨event, hevent⟩ := exists_observed h name op
    obtain ⟨events, hevents⟩ := ih (step_moves h op).sound
    exact ⟨event :: events, .cons hevent hevents⟩

theorem remembered_of_run (h : engine.Sound) {ops : List Op} {events : List Event}
    (hobserved : Observations name engine ops events) :
    (engine.run ops).remembered name = events.foldl Event.next (engine.remembered name) := by
  induction hobserved with
  | nil => rfl
  | @cons engine op ops event events hevent _ ih =>
    rw [List.foldl_cons, ← remembered_of_step h hevent]
    exact ih (step_moves h op).sound

/-- After every run, the machine that was told what the operations came to remembers what the
session under a name remembers. An operation about another session leaves this one as it is, and
a refused option changes nothing but the error. -/
theorem remembered_eq_last_outcome (providers : List Provider) (ops : List Op) (name : String) :
    let engine := (start providers).run ops
    (∃ events, Observations name (start providers) ops events) ∧
    (∀ events, Observations name (start providers) ops events →
      (engine.sessions.find? name).map Session.lastError = events.foldl Event.next none) ∧
    (∀ op : Op, op.subject ≠ some name →
      (engine.step op).2.sessions.find? name = engine.sessions.find? name) ∧
    (∀ session opt error, engine.sessions.find? name = some session →
      (engine.step (.option (some name) opt)).1 = .refused error →
      (engine.step (.option (some name) opt)).2.sessions.find? name =
        some { session with lastError := some error }) := by
  intro engine
  have hsound := sound_start providers
  refine ⟨exists_observations hsound name ops, ?_, ?_, ?_⟩
  · intro events hevents
    exact remembered_of_run hsound hevents
  · intro op hsubject
    exact find?_of_step_elsewhere hsubject
  · intro session opt error hfind hanswer
    rcases applyOption_of_find? hfind opt with ⟨hdone, -⟩ | ⟨other, hrefused, -, hother⟩
    · rw [step, hdone] at hanswer
      cases hanswer
    · rw [step, hrefused] at hanswer
      cases hanswer
      rw [step, hother, if_pos rfl]

end Engine

end Disassembly
