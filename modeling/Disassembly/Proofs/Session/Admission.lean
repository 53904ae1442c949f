import Disassembly.Engine
import Disassembly.Proofs.Family.Modes
import Disassembly.Proofs.Memory.Limit
import Disassembly.Proofs.Session.Opening
/-!
# Whether a session is opened

Opening asks for the block of the session, looks at the mode and asks for the register table, in
this order. Under a limit it is settled in advance where it ends, and that whatever was taken by
then is given back.
-/
namespace Disassembly

namespace Arch

def table (arch : Arch) (decoder : Decoder) : RegisterTable :=
  .collect ((arch.backend decoder).regName .default) RegisterTable.slots

def tableBytes (arch : Arch) (decoder : Decoder) : Nat :=
  if arch.keepsTable then (Footprint.cost (arch.table decoder)).toNat else 0

/-- What opening comes to under a limit, with so many bytes held before: an error, or the bytes
that are held after it. -/
def admission (arch : Arch) (mode : Mode) (decoder : Decoder) (limit held : Nat) :
    Except Error Nat :=
  if limit < held + 128 then .error .outOfMemory
  else if ¬ arch.RunsIn mode then .error .invalidMode
  else if arch.keepsTable = true ∧ limit < held + 128 + arch.tableBytes decoder then
    .error .outOfMemory
  else .ok (held + 128 + arch.tableBytes decoder)

theorem ofCode?_eq_none {code : UInt32} (h : ∀ arch : Arch, arch.code ≠ code) :
    ofCode? code = none := by
  apply List.find?_eq_none.2
  intro arch _
  rw [beq_iff_eq]
  exact h arch

variable {host : Host} {id : ProviderId} {limit : UInt64} {held : Nat}
  (hlimit : limit.toNat < 2 ^ 64 - 1) (h : host.Limited id limit held) (arch : Arch) (mode : Mode)
  (decoder : Decoder)
include hlimit h

theorem wire_of_full (hmode : arch.RunsIn mode) (htable : arch.keepsTable = true)
    (hfull : limit.toNat < held + arch.tableBytes decoder) :
    ∃ host', arch.wire mode decoder host id = (.error .outOfMemory, host') := by
  obtain ⟨machine, hmachine⟩ := Option.isSome_iff_exists.1 ((arch.isSome_machine? mode).2 hmode)
  rw [tableBytes, if_pos htable] at hfull
  obtain ⟨host', hpayload⟩ := Payload.allocate_of_full hlimit h hfull
  rw [table] at hpayload
  refine ⟨host', ?_⟩
  rw [wire, hmachine]
  dsimp only
  rw [Capabilities.assemble, if_pos htable, hpayload]

theorem wire_of_room (hmode : arch.RunsIn mode)
    (hroom : arch.keepsTable = true → held + arch.tableBytes decoder ≤ limit.toNat) :
    ∃ capabilities host', arch.wire mode decoder host id = (.ok capabilities, host') ∧
      host'.Limited id limit (held + arch.tableBytes decoder) := by
  obtain ⟨machine, hmachine⟩ := Option.isSome_iff_exists.1 ((arch.isSome_machine? mode).2 hmode)
  rw [wire, hmachine]
  dsimp only
  by_cases htable : arch.keepsTable = true
  · have hroom := hroom htable
    rw [tableBytes, if_pos htable] at hroom ⊢
    obtain ⟨host', hpayload, hafter⟩ := Payload.allocate_of_room hlimit h hroom
    rw [table] at hpayload
    rw [Capabilities.assemble, if_pos htable, hpayload]
    exact ⟨_, _, rfl, hafter⟩
  · rw [tableBytes, if_neg htable, Nat.add_zero]
    rw [Capabilities.assemble, if_neg htable]
    exact ⟨_, _, rfl, h⟩

omit hlimit h in
theorem wire_of_not_runsIn (host : Host) (id : ProviderId) (hmode : ¬ arch.RunsIn mode) :
    arch.wire mode decoder host id = (.error .invalidMode, host) := by
  rw [wire, (arch.machine?_eq_none mode).2 hmode]

end Arch

namespace Session

structure Begins (session : Session) (family : Arch) (asked : Mode) : Prop where
  arch : session.arch = family
  mode : session.mode = asked
  bigEndian : session.isBigEndian = asked.bits.toNat.testBit 31
  detail : session.detail = false
  dialect : session.dialect = .default
  lastError : session.lastError = none

variable {host : Host} {id : ProviderId} {limit : UInt64} {held : Nat}
  (hlimit : limit.toNat < 2 ^ 64 - 1) (h : host.Limited id limit held) (arch : Arch) (mode : Mode)
  (decoder : Decoder)

/-- However a session was opened, it begins as it was asked for. -/
theorem openWith_begins {session : Session} {host' : Host}
    (hopen : openWith arch mode decoder host id = (.ok session, host')) :
    session.Begins arch mode := by
  rw [openWith, assemble] at hopen
  cases hgrant : Grant.zeroed host id 1 sessionBytes with
  | mk answer taken =>
    rw [hgrant] at hopen
    cases answer with
    | error error => cases hopen
    | ok grant =>
      dsimp only at hopen
      cases hwire : arch.wire mode decoder taken id with
      | mk wired ready =>
        rw [hwire] at hopen
        cases wired with
        | error error => cases hopen
        | ok capabilities =>
          cases hopen
          exact ⟨rfl, rfl, mode.isBigEndian_eq, rfl, rfl, rfl⟩

section Limited

include hlimit h

theorem openWith_of_full (hfull : limit.toNat < held + 128) :
    ∃ host', openWith arch mode decoder host id = (.error .outOfMemory, host') := by
  obtain ⟨host', hgrant⟩ := @Grant.allocate_of_full _ _ _ (1 * sessionBytes) _ hlimit h hfull
  refine ⟨host', ?_⟩
  rw [openWith, assemble, Grant.zeroed_of_lt (by decide), hgrant]

theorem openWith_of_room (hroom : held + 128 ≤ limit.toNat) :
    ∃ taken, taken.Limited id limit (held + 128) ∧
      (∀ error host', arch.wire mode decoder taken id = (.error error, host') →
        ∃ host'', openWith arch mode decoder host id = (.error error, host'')) ∧
      ∀ capabilities host', arch.wire mode decoder taken id = (.ok capabilities, host') →
        ∃ session, openWith arch mode decoder host id =
          (.ok session, host'.note (.opened arch mode)) := by
  obtain ⟨taken, hgrant, htaken⟩ :=
    @Grant.allocate_of_room _ _ _ (1 * sessionBytes) _ hlimit h hroom
  refine ⟨taken, htaken, ?_, ?_⟩
  · intro error host' hwire
    rw [openWith, assemble, Grant.zeroed_of_lt (by decide), hgrant]
    dsimp only
    rw [hwire]
    exact ⟨_, rfl⟩
  · intro capabilities host' hwire
    rw [openWith, assemble, Grant.zeroed_of_lt (by decide), hgrant]
    dsimp only
    rw [hwire]
    exact ⟨_, rfl⟩

/-- The outcome of opening is the one that was settled in advance. -/
theorem openWith_admitted :
    match arch.admission mode decoder limit.toNat held with
    | .error error => ∃ host', openWith arch mode decoder host id = (.error error, host')
    | .ok bytes => ∃ session host', openWith arch mode decoder host id = (.ok session, host') ∧
        session.Begins arch mode ∧ host'.Limited id limit bytes := by
  -- Each stage is looked at where none of those before it ended the opening.
  rw [Arch.admission]
  by_cases hblock : limit.toNat < held + 128
  · rw [if_pos hblock]
    exact openWith_of_full hlimit h arch mode decoder hblock
  · obtain ⟨taken, htaken, hfailed, hopened⟩ :=
      openWith_of_room hlimit h arch mode decoder (Nat.not_lt.1 hblock)
    rw [if_neg hblock]
    by_cases hmode : arch.RunsIn mode
    · rw [if_neg (not_not_intro hmode)]
      by_cases hfull : arch.keepsTable = true ∧
          limit.toNat < held + 128 + arch.tableBytes decoder
      · obtain ⟨host', hwire⟩ :=
          Arch.wire_of_full hlimit htaken arch mode decoder hmode hfull.1 hfull.2
        rw [if_pos hfull]
        exact hfailed _ host' hwire
      · obtain ⟨capabilities, host', hwire, hafter⟩ :=
          Arch.wire_of_room hlimit htaken arch mode decoder hmode
            fun htable => Nat.not_lt.1 fun hless => hfull ⟨htable, hless⟩
        obtain ⟨session, hopen⟩ := hopened capabilities host' hwire
        rw [if_neg hfull]
        exact ⟨session, _, hopen, openWith_begins arch mode decoder hopen, hafter⟩
    · rw [if_pos hmode]
      exact hfailed _ _ (arch.wire_of_not_runsIn mode decoder taken id hmode)

end Limited

/-- A session that could not be opened has left all counters as they were. -/
theorem Opened.counters_of_error {backend : Backend} {error : Error} {host' : Host}
    (hopened : Opened id host backend (.error error, host')) (other : ProviderId) :
    (host'.provider other).liveBytes = (host.provider other).liveBytes ∧
      (host'.provider other).liveBlocks = (host.provider other).liveBlocks := by
  cases hopened with
  | failed hexchange => exact hexchange.counters_eq other

theorem openTarget_raw {engine : Engine} (hinstalled : engine.installed = some id) (bits : UInt32)
    (decoders : Arch → Decoder) :
    (∀ code : UInt32, (∀ arch : Arch, arch.code ≠ code) →
      Engine.openTarget engine.host (engine.resolve .global) (.raw code bits decoders) =
        (.error .unsupportedArch, engine.host)) ∧
    ∀ arch : Arch, Engine.openTarget engine.host (engine.resolve .global)
        (.raw arch.code bits decoders) =
      if (⟨bits⟩ : Mode).positions ⊆ {1, 2, 3, 4, 5, 31} then
        openWith arch ⟨bits⟩ (decoders arch) engine.host id
      else (.error .invalidMode, engine.host) := by
  have hresolve : engine.resolve .global = .ok id := by
    rw [Engine.resolve, hinstalled]
    rfl
  rw [hresolve]
  constructor
  · intro code hcode
    simp only [Engine.openTarget, Engine.openRaw, Arch.ofCode?_eq_none hcode]
  · intro arch
    simp only [Engine.openTarget, Engine.openRaw, Arch.ofCode?_code, Mode.ofBits?_eq]
    by_cases hknown : (⟨bits⟩ : Mode).positions ⊆ {1, 2, 3, 4, 5, 31}
    · rw [if_pos hknown, if_pos hknown]
    · rw [if_neg hknown, if_neg hknown]

/-- Opening ends in one of four ways, which are tried in a fixed order: no room for the session, a
mode that the family does not run in, no room for the register table, or a session. Only a session
leaves anything behind. By numbers it ends alike, but that an unknown family and then an unknown
bit are reported before all else. -/
theorem openWith_ordered (hlimit : limit.toNat < 2 ^ 64 - 1) (h : host.Limited id limit held)
    (arch : Arch) (mode : Mode) (decoder : Decoder) :
    (∀ error, arch.admission mode decoder limit.toNat held = .error error →
      ∃ host', openWith arch mode decoder host id = (.error error, host') ∧
        ∀ other, (host'.provider other).liveBytes = (host.provider other).liveBytes ∧
          (host'.provider other).liveBlocks = (host.provider other).liveBlocks) ∧
    (∀ bytes, arch.admission mode decoder limit.toNat held = .ok bytes →
      ∃ session host', openWith arch mode decoder host id = (.ok session, host') ∧
        session.Begins arch mode ∧ host'.Limited id limit bytes) ∧
    ∀ engine : Engine, engine.host = host → engine.installed = some id →
      ∀ (bits : UInt32) (decoders : Arch → Decoder),
        (∀ code : UInt32, (∀ family : Arch, family.code ≠ code) →
          Engine.openTarget engine.host (engine.resolve .global) (.raw code bits decoders) =
            (.error .unsupportedArch, host)) ∧
        ∀ family : Arch, Engine.openTarget engine.host (engine.resolve .global)
            (.raw family.code bits decoders) =
          if (⟨bits⟩ : Mode).positions ⊆ {1, 2, 3, 4, 5, 31} then
            openWith family ⟨bits⟩ (decoders family) host id
          else (.error .invalidMode, host) := by
  have hadmitted := openWith_admitted hlimit h arch mode decoder
  refine ⟨?_, ?_, ?_⟩
  · intro error hadmission
    rw [hadmission] at hadmitted
    obtain ⟨host', hopen⟩ := hadmitted
    have hopened := openWith_opened arch mode decoder host id
    rw [hopen] at hopened
    exact ⟨host', hopen, hopened.counters_of_error⟩
  · intro bytes hadmission
    rw [hadmission] at hadmitted
    exact hadmitted
  · rintro engine rfl hinstalled bits decoders
    exact openTarget_raw hinstalled bits decoders

/-- A family with a table of 12312 bytes is opened under a limit that leaves room for just that. -/
theorem openWith_ordered_exact_limit :
    let host : Host := { providers := [.tracking { policy := .limit 12540, liveBytes := 100 }] }
    host.Limited 0 12540 100 ∧ Arch.arm.tableBytes .silent = 12312 ∧
      (∃ session host', openWith .arm .thumb .silent host 0 = (.ok session, host') ∧
        session.Begins .arm .thumb ∧ host'.Limited 0 12540 12540) ∧
      ∃ host', openWith .x86 .thumb .silent host 0 = (.error .invalidMode, host') ∧
        (host'.provider 0).liveBytes = 100 := by
  intro host
  have hbound : (12540 : UInt64).toNat < 2 ^ 64 - 1 := by decide
  have hlimited : host.Limited 0 12540 100 := ⟨_, rfl, rfl, rfl⟩
  have htable : Arch.arm.tableBytes .silent = 12312 := by decide +kernel
  have harm : Arch.arm.admission .thumb .silent 12540 100 = .ok 12540 := by
    rw [Arch.admission, htable, if_neg (by decide), if_neg (by decide), if_neg (by decide)]
  have hx86 : Arch.x86.admission .thumb .silent 12540 100 = .error .invalidMode := by
    rw [Arch.admission, if_neg (by decide), if_pos (by decide)]
  obtain ⟨-, hopened, -⟩ := openWith_ordered hbound hlimited .arm .thumb .silent
  obtain ⟨hrefused, -, -⟩ := openWith_ordered hbound hlimited .x86 .thumb .silent
  obtain ⟨host', hopen, hcounters⟩ := hrefused .invalidMode hx86
  exact ⟨hlimited, htable, hopened 12540 harm, host', hopen, (hcounters 0).1⟩

end Session

end Disassembly
