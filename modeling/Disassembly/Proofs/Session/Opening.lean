import Disassembly.Config
import Disassembly.Family.Rules
import Disassembly.Proofs.Memory.Exchange
/-!
# Opening a session

A session that was opened holds its own block and the register table's, both from the provider
that was named. One that could not be opened holds nothing.
-/
namespace Disassembly

namespace RegisterTable

def Kept (id : ProviderId) (table : Payload RegisterTable) : Prop :=
  ∃ name, table = .paid id (collect name slots)

end RegisterTable

namespace Capabilities

variable {id : ProviderId} {host : Host} {backend : Backend}

inductive Wired (id : ProviderId) (host : Host) (backend : Backend) :
    Except Error Capabilities × Host → Prop where
  | ready {sideTable : Option (Payload RegisterTable)} {host' : Host} :
      (∀ table, sideTable = some table → RegisterTable.Kept id table) →
      host.Exchange [] host' (sideTable.map Payload.grant).toList →
      Wired id host backend (.ok { backend, sideTable }, host')
  | failed {error : Error} {host' : Host} : host.Exchange [] host' [] →
      Wired id host backend (.error error, host')

theorem assemble_wired (backend : Backend) (keepsTable : Bool) (host : Host) (id : ProviderId) :
    Wired id host backend (assemble backend keepsTable host id) := by
  unfold assemble
  split
  · split
    · next htable =>
      obtain ⟨rfl, hexchange⟩ := Payload.allocate_ok htable
      refine .ready (fun table h => ⟨backend.regName .default, ?_⟩) hexchange
      exact (Option.some.inj h).symm
    · next htable => exact .failed (Payload.allocate_error htable)
  · exact .ready (fun table h => by cases h) (.refl host [])

theorem wire_wired (arch : Arch) (mode : Mode) (decoder : Decoder) (host : Host)
    (id : ProviderId) : Wired id host (arch.backend decoder) (arch.wire mode decoder host id) := by
  unfold Arch.wire
  split
  · exact .failed (.refl host [])
  · have hwired := assemble_wired (arch.backend decoder) arch.keepsTable host id
    cases hassemble : assemble (arch.backend decoder) arch.keepsTable host id with
    | mk result host' =>
      rw [hassemble] at hwired
      cases hwired with
      | ready htable hexchange => exact .ready htable (hexchange.note _)
      | failed hexchange => exact .failed hexchange

theorem wire_rules_wired (family : RuleFamily) (host : Host) (id : ProviderId) :
    Wired id host family.backend (family.wire host id) := by
  unfold RuleFamily.wire
  split
  · exact .failed (.refl host [])
  · exact assemble_wired _ _ _ _

end Capabilities

namespace Session

open Capabilities (Wired)

inductive Opened (id : ProviderId) (host : Host) (backend : Backend) :
    Except Error Session × Host → Prop where
  | opened {session : Session} {host' : Host} : session.backend = backend →
      session.grant = { provider := id, size := sessionBytes, held := true } →
      (∀ table, session.sideTable = some table → RegisterTable.Kept id table) →
      host.Exchange [] host' session.grants → Opened id host backend (.ok session, host')
  | failed {error : Error} {host' : Host} : host.Exchange [] host' [] →
      Opened id host backend (.error error, host')

theorem assemble_opened {arch : Arch} {mode : Mode} {host : Host} {id : ProviderId}
    {backend : Backend} {wire : Host → ProviderId → Except Error Capabilities × Host}
    (hwire : ∀ host, Wired id host backend (wire host id)) :
    Opened id host backend (assemble arch mode host id wire) := by
  unfold assemble
  rw [Grant.zeroed_of_lt (by decide)]
  split
  · next hgrant => exact .failed (Grant.allocate_error hgrant)
  · next grant taken hgrant =>
    obtain ⟨rfl, hexchange⟩ := Grant.allocate_ok hgrant
    have hwired := hwire taken
    cases hresult : wire taken id with
    | mk result host' =>
      rw [hresult] at hwired
      cases hwired with
      | failed hfailed =>
        refine .failed (hexchange.trans ?_)
        exact (hfailed.frame [_]).trans (Grant.release_exchange _ _)
      | ready htable hready =>
        refine .opened rfl rfl htable ?_
        exact (hexchange.trans (hready.frame [_])).note _

theorem openWith_opened (arch : Arch) (mode : Mode) (decoder : Decoder) (host : Host)
    (id : ProviderId) :
    Opened id host (arch.backend decoder) (openWith arch mode decoder host id) :=
  assemble_opened fun host => Capabilities.wire_wired arch mode decoder host id

theorem drop_exchange (session : Session) (host : Host) :
    host.Exchange session.grants (session.drop host) [] := Grant.releaseAll_exchange _ host

/-- The settings of a configuration leave a session its collaborator and its blocks. -/
theorem ofConfig_opened (config : SessionConfig) (decoder : Decoder) (host : Host)
    (id : ProviderId) :
    Opened id host (config.arch.backend decoder) (ofConfig config decoder host id) := by
  have hopened := openWith_opened config.arch config.effectiveMode decoder host id
  unfold ofConfig
  cases hopen : openWith config.arch config.effectiveMode decoder host id with
  | mk result host' =>
    rw [hopen] at hopened
    cases hopened with
    | failed hexchange => exact .failed hexchange
    | @opened session _ hbackend hgrant htable hexchange =>
      -- No setting is a block, and only a refused dialect gives the session back.
      dsimp only [setDetail]
      split
      · exact .opened hbackend hgrant htable (hexchange.note _)
      · by_cases haccepts : Backend.accepts { session with detail := config.detail }.backend
            config.dialect = true
        · rw [setDialect_of_accepts haccepts]
          exact .opened hbackend hgrant htable ((hexchange.note _).note _)
        · rw [setDialect_of_refuses haccepts]
          exact .failed (((hexchange.note _).note _).trans (drop_exchange session _))

end Session

end Disassembly
