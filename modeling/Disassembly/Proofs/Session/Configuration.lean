import Disassembly.Proofs.Session.Admission
/-!
# Sessions from configurations

A configuration is applied in three stages: the session is opened, detail is set, and the dialect
is switched unless it is the default one. Only the first and the last can fail, and a session whose
dialect is refused is given back whole.
-/
namespace Disassembly

namespace Arch

def Prints : Arch → Dialect → Bool
  | x86, .intel | x86, .att | ppc, .noRegName => true
  | _, _ => false

theorem contains_dialects {dialect : Dialect} (arch : Arch) (h : dialect ≠ .default) :
    arch.dialects.contains dialect = arch.Prints dialect := by
  cases dialect with
  | default => exact absurd rfl h
  | intel | att | noRegName => cases arch <;> rfl

theorem accepts_backend (arch : Arch) (decoder : Decoder) (dialect : Dialect) :
    (arch.backend decoder).accepts dialect = arch.dialects.contains dialect := by
  cases arch <;> rfl

end Arch

namespace Session

variable {config : SessionConfig} {decoder : Decoder} {host host' : Host} {id : ProviderId}
  {session : Session}

inductive Configured (config : SessionConfig) (session : Session) :
    Except Error Session × Host → Prop where
  | done {host : Host} : config.dialect = .default ∨ config.arch.Prints config.dialect = true →
      Configured config session
        (.ok { session with detail := config.detail, dialect := config.dialect }, host)
  | refused {host : Host} : config.dialect ≠ .default →
      config.arch.Prints config.dialect = false →
      Configured config session (.error .invalidOption, host)

theorem ofConfig_of_error {error : Error}
    (hopen : openWith config.arch config.effectiveMode decoder host id = (.error error, host')) :
    ofConfig config decoder host id = (.error error, host') := by
  rw [ofConfig, hopen]

theorem ofConfig_configured
    (hopen : openWith config.arch config.effectiveMode decoder host id = (.ok session, host')) :
    Configured config session (ofConfig config decoder host id) := by
  have hopened := openWith_opened config.arch config.effectiveMode decoder host id
  have hbegins := openWith_begins config.arch config.effectiveMode decoder hopen
  rw [hopen] at hopened
  cases hopened with
  | opened hbackend =>
    rw [ofConfig, hopen]
    dsimp only [setDetail]
    by_cases hdefault : config.dialect = .default
    · -- The default dialect is in force already, and most families would refuse to switch to it.
      have hsame : { session with detail := config.detail } =
          { session with detail := config.detail, dialect := config.dialect } := by
        rw [hdefault, ← hbegins.dialect]
      rw [if_pos hdefault, hsame]
      exact .done (.inl hdefault)
    · have hprints : ({ session with detail := config.detail } : Session).backend.accepts
          config.dialect = config.arch.Prints config.dialect := by
        rw [← Arch.contains_dialects _ hdefault, ← config.arch.accepts_backend decoder, ← hbackend]
      rw [if_neg hdefault]
      by_cases haccepts : config.arch.Prints config.dialect = true
      · rw [setDialect_of_accepts (hprints.trans haccepts)]
        exact .done (.inr haccepts)
      · rw [setDialect_of_refuses (hprints ▸ haccepts)]
        exact .refused hdefault (Bool.eq_false_iff.2 haccepts)

/-- A configuration is carried out where its mode can be opened and its dialect, unless it is the
default one, is one that the family prints. The session is then configured as it was asked for.
Otherwise the error names the stage that failed, and nothing is held that was not held before. -/
theorem ofConfig_isOk_iff (config : SessionConfig) (decoder : Decoder) (host : Host)
    (id : ProviderId) :
    let opened := openWith config.arch config.effectiveMode decoder host id
    let outcome := ofConfig config decoder host id
    (outcome.1.isOk ↔ opened.1.isOk ∧
        (config.dialect = .default ∨ config.arch.Prints config.dialect = true)) ∧
      (∀ session, outcome.1 = .ok session → session.arch = config.arch ∧
        session.mode = config.effectiveMode ∧ session.detail = config.detail ∧
        session.dialect = config.dialect ∧ session.lastError = none) ∧
      ∀ error, outcome.1 = .error error →
        (opened.1 = .error error ∨ (opened.1.isOk ∧ error = .invalidOption)) ∧
        ∀ other, (outcome.2.provider other).liveBytes = (host.provider other).liveBytes ∧
          (outcome.2.provider other).liveBlocks = (host.provider other).liveBlocks := by
  intro opened outcome
  cases hopen : openWith config.arch config.effectiveMode decoder host id with
  | mk answer host' =>
    have hanswer : opened.1 = answer := congrArg Prod.fst hopen
    have hopened : Opened id host (config.arch.backend decoder) outcome :=
      ofConfig_opened config decoder host id
    rw [hanswer]
    cases answer with
    | error error =>
      have houtcome : outcome = (.error error, host') := ofConfig_of_error hopen
      rw [houtcome] at hopened ⊢
      refine ⟨?_, ?_, ?_⟩
      · apply iff_of_false Bool.false_ne_true
        rintro ⟨hok, -⟩
        exact Bool.false_ne_true hok
      · rintro session ⟨⟩
      · rintro other ⟨⟩
        exact ⟨.inl rfl, hopened.counters_of_error⟩
    | ok session =>
      have hbegins := openWith_begins config.arch config.effectiveMode decoder hopen
      have hconfigured : Configured config session outcome := ofConfig_configured hopen
      -- What the configuration came to is all that counts from here, not how it came about.
      generalize outcome = outcome at hconfigured hopened ⊢
      cases hconfigured with
      | done hdialect =>
        refine ⟨iff_of_true rfl ⟨rfl, hdialect⟩, ?_, ?_⟩
        · rintro configured ⟨⟩
          exact ⟨hbegins.arch, hbegins.mode, rfl, rfl, hbegins.lastError⟩
        · rintro error ⟨⟩
      | refused hdefault hrefused =>
        refine ⟨iff_of_false Bool.false_ne_true ?_, ?_, ?_⟩
        · rintro ⟨-, hdialect | hprints⟩
          · exact hdefault hdialect
          · rw [hrefused] at hprints
            cases hprints
        · rintro session ⟨⟩
        · rintro error ⟨⟩
          exact ⟨.inr ⟨rfl, rfl⟩, hopened.counters_of_error⟩

end Session

end Disassembly
