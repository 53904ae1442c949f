import Disassembly.Proofs.Engine.Books
/-!
# What becomes of the sessions

An operation concerns the session that it is about and no other. Whatever it is, a session that is
still there afterwards holds the blocks that it held.
-/
namespace Disassembly

def Op.subject : Op → Option String
  | openSession name .. | consult name _ => some name
  | option name _ | errno name | close name | dropSession name | state name => name
  | disasm name .. | disasmWithin name .. | disasmAll name .. | query name .. => name
  | regName name _ | insnName name _ | tableName name _ => name
  | install .. | registry _ | free _ | overwrite .. | discard .. | records _ | format ..
  | insnQuery .. => none

/-- What an operation about a session leaves of it, but for the error that it remembers. -/
def Op.leaves (session : Session) : Op → Option Session
  | consult _ decoder =>
    some { session with backend := session.arch.backend (decoder session.arch) }
  | option _ (.detail on) => some { session with detail := on }
  | option _ (.dialect dialect) =>
    some (if session.backend.accepts dialect then { session with dialect } else session)
  | close _ | dropSession _ => none
  | _ => some session

def Answer.error? : Answer → Option Error
  | refused cause => some cause
  | _ => none

namespace Session

variable {session : Session}

/-- What a query of a record comes to in a session. With detail off the record is not asked. -/
def verdict (session : Session) (insn : Insn) (query : Query) : Option Error :=
  if session.detail then (Engine.askInsn insn query).error? else some .detailUnavailable

theorem snd_query {α : Type} (session : Session) (insn : Insn) (ask : Insn → Except Error α)
    (answer : α → Answer) (hanswer : ∀ value, (answer value).error? = none) :
    (session.query insn ask).2 = { session with
      lastError := if session.detail then (Engine.outcome answer (ask insn)).error?
        else some .detailUnavailable } := by
  unfold query
  by_cases hdetail : session.detail = true
  · simp only [hdetail, if_true]
    cases ask insn with
    | ok value => simp [Engine.outcome, hanswer]
    | error error => rfl
  · simp [hdetail]

theorem snd_askSession (session : Session) (insn : Insn) (query : Query) :
    (Engine.askSession session insn query).2 =
      { session with lastError := session.verdict insn query } := by
  cases query with
  | inGroup group =>
    exact (snd_queryFlag insn _).trans (snd_query session insn _ .flag fun _ => rfl)
  | readsReg reg =>
    exact (snd_queryFlag insn _).trans (snd_query session insn _ .flag fun _ => rfl)
  | writesReg reg =>
    exact (snd_queryFlag insn _).trans (snd_query session insn _ .flag fun _ => rfl)
  | opCount kind =>
    have hquery := snd_query session insn (·.opCount kind) (fun n : Nat => .number n) fun _ => rfl
    refine (snd_opCount insn kind).trans (hquery.trans ?_)
    rw [verdict, Engine.askInsn]
    cases insn.opCount kind <;> rfl
  | opIndex kind nth =>
    exact (snd_opIndex insn kind nth).trans (snd_query session insn _ .position fun _ => rfl)

end Session

namespace Engine

variable {engine : Engine} {name other out : String} {session session' : Session} {op : Op}

theorem sessions_decodeInto (engine : Engine) (name : String) (session : Session) (out : String)
    (code : List UInt8) (address : UInt64) (before slots after : List Insn) :
    (engine.decodeInto name session out code address before slots after).2.sessions =
      engine.sessions.insert name { session with
        lastError := (session.fill engine.host code address slots).1.error } := rfl

theorem sessions_runDisasm (engine : Engine) (name : String) (session : Session) (out : String)
    (code : List UInt8) (address : UInt64) (slots : Nat) (reuse : Bool) :
    (engine.runDisasm name session out code address slots reuse).2.sessions =
      engine.sessions.insert name { session with
        lastError := (session.fill (engine.slotsFor out slots reuse).1.host code address
          (engine.slotsFor out slots reuse).2).1.error } := by
  rw [runDisasm, ← sessions_slotsFor engine out slots reuse]
  exact sessions_decodeInto _ _ _ _ _ _ _ _ _

theorem runDisasmWithin_of_find? {insns : List Insn}
    (h : engine.outputs.find? out = some (.slots insns)) (name : String) (session : Session)
    (code : List UInt8) (address : UInt64) (start count : Nat) :
    engine.runDisasmWithin name session out code address start count =
      engine.decodeInto name session out code address (insns.take start)
        (slotsWithin insns start count) (insns.drop (start + count)) := by
  rw [runDisasmWithin, h]

theorem runDisasmWithin_of_forall_ne (h : ∀ insns, engine.outputs.find? out ≠ some (.slots insns))
    (name : String) (session : Session) (code : List UInt8) (address : UInt64)
    (start count : Nat) :
    engine.runDisasmWithin name session out code address start count = (.nothing, engine) := by
  unfold runDisasmWithin
  split
  · next insns hkept => exact absurd hkept (h insns)
  · rfl

theorem sessions_runDisasmWithin (engine : Engine) (name : String) (session : Session)
    (out : String) (code : List UInt8) (address : UInt64) (start count : Nat) :
    (engine.runDisasmWithin name session out code address start count).2.sessions =
        engine.sessions ∨
      ∃ error, (engine.runDisasmWithin name session out code address start count).2.sessions =
        engine.sessions.insert name { session with lastError := error } := by
  unfold runDisasmWithin
  split
  · exact .inr ⟨_, sessions_decodeInto _ _ _ _ _ _ _ _ _⟩
  · exact .inl rfl

theorem sessions_replaceSlot (engine : Engine) (out : String) (index : Nat) (put : List Insn) :
    (engine.replaceSlot out index put).2.sessions = engine.sessions := by
  unfold replaceSlot
  split
  · split <;> rfl
  · rfl

section DynamicDecode

variable {code : List UInt8} {address : UInt64} {count : Nat} {host : Host}

theorem runDisasmAll_of_error {error : Error}
    (h : session.collect engine.host code address count = (.error error, host)) :
    engine.runDisasmAll name session out code address count =
      (.refused error,
        { engine with
          host := host.note (.aborted address error)
          sessions := engine.sessions.insert name { session with lastError := some error } }) := by
  unfold runDisasmAll Session.disasmAll
  rw [h]

theorem runDisasmAll_of_ok {instructions : Instructions}
    (h : session.collect engine.host code address count = (.ok instructions, host)) :
    engine.runDisasmAll name session out code address count =
      let changed := { engine with
        host, sessions := engine.sessions.insert name { session with lastError := none } }
      (.handedOver instructions,
        { changed.dropOutput out with
          outputs := (changed.dropOutput out).outputs.insert out (.region instructions) }) := by
  unfold runDisasmAll Session.disasmAll
  rw [h]

theorem sessions_runDisasmAll (engine : Engine) (name : String) (session : Session) (out : String)
    (code : List UInt8) (address : UInt64) (count : Nat) :
    (engine.runDisasmAll name session out code address count).2.sessions =
      engine.sessions.insert name { session with
        lastError := (engine.runDisasmAll name session out code address count).1.error? } := by
  cases hcollect : session.collect engine.host code address count with
  | mk result host =>
    cases result with
    | error error =>
      rw [runDisasmAll_of_error hcollect]
      rfl
    | ok instructions =>
      rw [runDisasmAll_of_ok hcollect]
      exact sessions_dropOutput _ out

end DynamicDecode

/-- What an option does to the session it is applied to. Refused, it leaves all settings as they
were. -/
theorem applyOption_of_find? (hfind : engine.sessions.find? name = some session)
    (opt : Opt ProviderId) :
    ((engine.applyOption (some name) opt).1 = .done ∧
      ∃ changed : Session, changed.lastError = session.lastError ∧
        (Op.option (some name) opt).leaves session = some changed ∧
        ∀ other, (engine.applyOption (some name) opt).2.sessions.find? other =
          if other = name then some changed else engine.sessions.find? other) ∨
    ∃ error, (engine.applyOption (some name) opt).1 = .refused error ∧
      (Op.option (some name) opt).leaves session = some session ∧
      ∀ other, (engine.applyOption (some name) opt).2.sessions.find? other =
        if other = name then some { session with lastError := some error }
        else engine.sessions.find? other := by
  have hsession : engine.session? (some name) = some session := hfind
  unfold applyOption
  rw [hsession]
  cases opt with
  | memory provider =>
    refine .inl ⟨rfl, session, rfl, rfl, fun other => ?_⟩
    by_cases hother : other = name
    · rw [if_pos hother, hother]
      exact hfind
    · rw [if_neg hother]
  | detail on =>
    exact .inl ⟨rfl, { session with detail := on }, rfl, rfl, fun _ => Named.find?_insert _ _ _ _⟩
  | dialect dialect =>
    dsimp only [Op.leaves]
    by_cases haccepts : session.backend.accepts dialect = true
    · rw [Session.setDialect_of_accepts haccepts, if_pos haccepts]
      exact .inl ⟨rfl, { session with dialect }, rfl, rfl, fun _ => Named.find?_insert _ _ _ _⟩
    · rw [Session.setDialect_of_refuses haccepts, if_neg haccepts]
      exact .inr ⟨.invalidOption, rfl, rfl, fun _ => Named.find?_insert _ _ _ _⟩

theorem sessions_applyOption_of_none {name : Option String} (opt : Opt ProviderId)
    (h : engine.session? name = none) :
    (engine.applyOption name opt).2.sessions = engine.sessions := by
  unfold applyOption
  rw [h]
  split <;> first | rfl | contradiction

theorem withSession_of_find? (h : engine.sessions.find? name = some session)
    (act : String → Session → Answer × Engine) :
    engine.withSession (some name) act = act name session := by
  have hsession : engine.session? (some name) = some session := h
  unfold withSession
  rw [hsession]

theorem withSession_of_none (h : engine.sessions.find? name = none)
    (act : String → Session → Answer × Engine) :
    engine.withSession (some name) act = (.noSession, engine) := by
  have hsession : engine.session? (some name) = none := h
  unfold withSession
  rw [hsession]

theorem find?_withSession {name : Option String} (hname : name ≠ some other)
    {act : String → Session → Answer × Engine}
    (hact : ∀ named session, name = some named →
      (act named session).2.sessions.find? other = engine.sessions.find? other) :
    (engine.withSession name act).2.sessions.find? other = engine.sessions.find? other := by
  unfold withSession
  split
  · next named session hsession => exact hact named session rfl
  · rfl

theorem step_openSession (engine : Engine) (name : String) (source : Source) (target : Target) :
    (∃ session host,
      openTarget engine.host (engine.resolve source) target = (.ok session, host) ∧
      engine.step (.openSession name source target) =
        (.session session, { engine with host }.putSession name session)) ∨
    ∃ error host,
      openTarget engine.host (engine.resolve source) target = (.error error, host) ∧
      engine.step (.openSession name source target) = (.refused error, { engine with host }) := by
  unfold step
  dsimp only
  cases hopen : openTarget engine.host (engine.resolve source) target with
  | mk result host =>
    cases result with
    | error error => exact .inr ⟨error, host, rfl, rfl⟩
    | ok session => exact .inl ⟨session, host, rfl, rfl⟩

theorem sessions_of_endsSession (h : op.EndsSession name) :
    (engine.step op).2.sessions = engine.sessions.erase name := by
  rcases h with rfl | rfl
  · rw [step_close]
    exact (endSession_getD engine name Session.close).1
  · rw [step_dropSession]
    exact (endSession_getD engine name Session.drop).1

/-- An operation that is about another session, or about none, leaves a session as it is. -/
theorem find?_of_step_elsewhere (h : op.subject ≠ some name) :
    (engine.step op).2.sessions.find? name = engine.sessions.find? name := by
  -- Whatever an operation puts back it puts under the name that it is about.
  have hput : ∀ {named : String} (session : Session), some named ≠ some name →
      (engine.sessions.insert named session).find? name = engine.sessions.find? name := by
    intro named session hne
    rw [Named.find?_insert, if_neg fun heq => hne (congrArg some heq.symm)]
  cases op with
  | openSession named source target =>
    rcases engine.step_openSession named source target with ⟨session, host, -, hstep⟩ |
      ⟨error, host, -, hstep⟩ <;> rw [hstep]
    exact hput session h
  | consult named decoder =>
    unfold step
    dsimp only
    split
    · exact hput _ h
    · rfl
  | option named opt =>
    cases hsession : engine.session? named with
    | none => rw [step, sessions_applyOption_of_none opt hsession]
    | some session =>
      obtain ⟨named, rfl, hfind⟩ := Option.bind_eq_some_iff.1 hsession
      have hne : name ≠ named := fun heq => h (congrArg some heq.symm)
      rcases applyOption_of_find? hfind opt with ⟨-, changed, -, -, hother⟩ | ⟨error, -, -, hother⟩
      · exact (hother name).trans (if_neg hne)
      · exact (hother name).trans (if_neg hne)
  | close named =>
    cases named with
    | none => rfl
    | some named =>
      rw [sessions_of_endsSession (.inl rfl), Named.find?_erase,
        if_neg fun heq => h (congrArg some heq.symm)]
  | dropSession named =>
    cases named with
    | none => rfl
    | some named =>
      rw [sessions_of_endsSession (.inr rfl), Named.find?_erase,
        if_neg fun heq => h (congrArg some heq.symm)]
  | disasm named out code address slots reuse =>
    apply find?_withSession h
    intro named session hnamed
    rw [sessions_runDisasm]
    exact hput _ (hnamed ▸ h)
  | disasmWithin named out code address start count =>
    apply find?_withSession h
    intro named session hnamed
    rcases sessions_runDisasmWithin engine named session out code address start count with
      hsame | ⟨error, hchanged⟩
    · rw [hsame]
    · rw [hchanged]
      exact hput _ (hnamed ▸ h)
  | disasmAll named out code address count =>
    apply find?_withSession h
    intro named session hnamed
    rw [sessions_runDisasmAll]
    exact hput _ (hnamed ▸ h)
  | query named out index query =>
    apply find?_withSession h
    intro named session hnamed
    dsimp only
    split
    · rfl
    · exact hput _ (hnamed ▸ h)
  | free out => rw [(step_free engine out).1]
  | overwrite out index address size => rw [step, sessions_replaceSlot]
  | discard out index => rw [step, sessions_replaceSlot]
  | state named => exact find?_withSession h fun _ _ _ => rfl
  | regName named reg => exact find?_withSession h fun _ _ _ => rfl
  | insnName named id => exact find?_withSession h fun _ _ _ => rfl
  | tableName named reg => exact find?_withSession h fun _ _ _ => rfl
  | records out | insnQuery out index query =>
    unfold step
    dsimp only
    split <;> rfl
  | install registry provider | registry registry | errno named | format out format base => rfl

theorem step_absent (hnone : engine.sessions.find? name = none)
    (hopen : ∀ source target, op ≠ .openSession name source target) :
    (engine.step op).2.sessions.find? name = none := by
  by_cases hsubject : op.subject = some name
  · have hsession : engine.session? (some name) = none := hnone
    have hact : ∀ act, (engine.withSession (some name) act).2.sessions.find? name = none := by
      intro act
      rw [withSession_of_none hnone]
      exact hnone
    cases op with
    | openSession named source target =>
      cases hsubject
      exact absurd rfl (hopen source target)
    | consult named decoder =>
      cases hsubject
      simp [step, hnone]
    | option named opt =>
      cases hsubject
      rw [step, sessions_applyOption_of_none opt hsession, hnone]
    | close named =>
      cases hsubject
      rw [sessions_of_endsSession (.inl rfl), Named.find?_erase, if_pos rfl]
    | dropSession named =>
      cases hsubject
      rw [sessions_of_endsSession (.inr rfl), Named.find?_erase, if_pos rfl]
    | errno named => exact hnone
    | state named | regName named | insnName named | tableName named | disasm named
    | disasmWithin named | disasmAll named | query named =>
      cases hsubject
      exact hact _
    | install | registry | free | overwrite | discard | records | format | insnQuery =>
      cases hsubject
  · rw [find?_of_step_elsewhere hsubject, hnone]

/-- An operation about a session that opens none leaves what it is said to leave. -/
theorem find?_of_step (hfind : engine.sessions.find? name = some session)
    (hsubject : op.subject = some name)
    (hopen : ∀ source target, op ≠ .openSession name source target) :
    ∃ error, (engine.step op).2.sessions.find? name =
      (op.leaves session).map fun left => { left with lastError := error } := by
  -- The session stays in its place, changed or not, unless the operation ends it.
  have hput : ∀ changed : Session,
      (engine.sessions.insert name changed).find? name = some changed := by
    intro changed
    rw [Named.find?_insert, if_pos rfl]
  cases op with
  | openSession named source target =>
    cases hsubject
    exact absurd rfl (hopen source target)
  | consult named decoder =>
    cases hsubject
    refine ⟨session.lastError, ?_⟩
    simp only [step, hfind]
    exact hput _
  | option named opt =>
    cases hsubject
    rcases applyOption_of_find? hfind opt with
      ⟨-, changed, -, hleaves, hother⟩ | ⟨error, -, hleaves, hother⟩
    · refine ⟨changed.lastError, ?_⟩
      rw [step, hother, if_pos rfl, hleaves]
      rfl
    · refine ⟨some error, ?_⟩
      rw [step, hother, if_pos rfl, hleaves]
      rfl
  | close named =>
    cases hsubject
    refine ⟨none, ?_⟩
    rw [sessions_of_endsSession (.inl rfl), Named.find?_erase, if_pos rfl]
    rfl
  | dropSession named =>
    cases hsubject
    refine ⟨none, ?_⟩
    rw [sessions_of_endsSession (.inr rfl), Named.find?_erase, if_pos rfl]
    rfl
  | disasm named out code address slots reuse =>
    cases hsubject
    rw [step, withSession_of_find? hfind, sessions_runDisasm]
    exact ⟨_, hput _⟩
  | disasmWithin named out code address start count =>
    cases hsubject
    rw [step, withSession_of_find? hfind]
    rcases sessions_runDisasmWithin engine name session out code address start count with
      hsame | ⟨error, hchanged⟩
    · rw [hsame]
      exact ⟨session.lastError, hfind⟩
    · rw [hchanged]
      exact ⟨error, hput _⟩
  | disasmAll named out code address count =>
    cases hsubject
    rw [step, withSession_of_find? hfind, sessions_runDisasmAll]
    exact ⟨_, hput _⟩
  | query named out index query =>
    cases hsubject
    rw [step, withSession_of_find? hfind]
    cases hinsn : engine.insn? out index with
    | none => exact ⟨session.lastError, hfind⟩
    | some insn =>
      have hasked := Session.snd_askSession session insn query
      exact ⟨session.verdict insn query, (hput _).trans (congrArg some hasked)⟩
  | errno named => exact ⟨session.lastError, hfind⟩
  | state named | regName named | insnName named | tableName named =>
    cases hsubject
    rw [step, withSession_of_find? hfind]
    exact ⟨session.lastError, hfind⟩
  | install | registry | free | overwrite | discard | records | format | insnQuery =>
    cases hsubject

theorem grant_of_leaves {left : Session} (h : op.leaves session = some left) :
    left.grant = session.grant := by
  unfold Op.leaves at h
  split at h
  · cases h
    rfl
  · cases h
    rfl
  · cases h
    split <;> rfl
  · cases h
  · cases h
  · cases h
    rfl

/-- A session that an operation leaves under its name still has its block, unless it was opened by
this operation. -/
theorem grant_of_step (hopen : ∀ source target, op ≠ .openSession name source target)
    (h : (engine.step op).2.sessions.find? name = some session') :
    ∃ session, engine.sessions.find? name = some session ∧ session'.grant = session.grant := by
  by_cases hsubject : op.subject = some name
  · cases hfind : engine.sessions.find? name with
    | none =>
      rw [step_absent hfind hopen] at h
      cases h
    | some session =>
      obtain ⟨error, hafter⟩ := find?_of_step hfind hsubject hopen
      rw [hafter] at h
      obtain ⟨left, hleaves, rfl⟩ := Option.map_eq_some_iff.1 h
      have hgrant : left.grant = session.grant := grant_of_leaves hleaves
      exact ⟨session, rfl, hgrant⟩
  · rw [find?_of_step_elsewhere hsubject] at h
    exact ⟨session', h, rfl⟩

/-- A session keeps its block through every run in which no other session takes its name. -/
theorem grant_of_run {ops : List Op}
    (hopen : ∀ op ∈ ops, ∀ source target, op ≠ .openSession name source target)
    (h : (engine.run ops).sessions.find? name = some session') :
    ∃ session, engine.sessions.find? name = some session ∧ session'.grant = session.grant := by
  induction ops generalizing engine with
  | nil => exact ⟨session', h, rfl⟩
  | cons op ops ih =>
    obtain ⟨middle, hmiddle, hgrant⟩ := ih (fun op hmem => hopen op (List.mem_cons_of_mem _ hmem)) h
    obtain ⟨session, hfind, hfirst⟩ := grant_of_step (hopen op List.mem_cons_self) hmiddle
    exact ⟨session, hfind, hgrant.trans hfirst⟩

end Engine

end Disassembly
