import Disassembly.Proofs.Decode.Dynamic
import Disassembly.Proofs.Decode.Fixed
import Disassembly.Proofs.Family.Combiners
import Disassembly.Proofs.Session.Opening
/-!
# Coverage

Both decodes return records that tile a beginning of the code, and without a cap they go on to the
first place that cannot be decoded. This is the place that the program names when it stops early:
it only adds up the sizes of the records it prints.
-/
namespace Disassembly

open CommandLine (coveredBytes)

/-- Records that tile a beginning of a code which is loaded at an address. -/
structure Tiling (address : UInt64) (code : List UInt8) (insns : List Insn) : Prop where
  sizes : ∀ insn ∈ insns, 1 ≤ insn.size.toNat
  addresses : ∀ i insn, insns[i]? = some insn →
    insn.address = address + (coveredBytes (insns.take i)).toUInt64
  within : coveredBytes insns ≤ code.length

theorem Tiles.tiling {address : UInt64} {code : List UInt8} {insns : List Insn}
    (h : Tiles address insns) (hwithin : coveredBytes insns ≤ code.length) :
    Tiling address code insns :=
  ⟨fun _ hmem => size_of_tiles h hmem, fun _ _ hi => address_of_tiles h hi, hwithin⟩

namespace Session

variable {session : Session} {host : Host} {code : List UInt8} {address : UInt64}
  {slots : List Insn} {count : Nat}

/-- Records that cover a code up to the first place that cannot be decoded. -/
structure Exhausts (session : Session) (code : List UInt8) (address : UInt64)
    (insns : List Insn) : Prop where
  first : session.StopsAt code address (coveredBytes insns)
  undecodable : session.Undecodable (code.drop (coveredBytes insns))
    (address + (coveredBytes insns).toUInt64)

theorem StopsAt.exhausts {insns : List Insn}
    (h : session.StopsAt code address (coveredBytes insns)) :
    session.Exhausts code address insns := ⟨h, h.undecodable⟩

theorem produced_tiling (hecho : session.backend.Echoes) (hplace : session.backend.KeepsPlace)
    (host : Host) (code : List UInt8) (address : UInt64) (slots : List Insn) :
    Tiling address code (session.disasm host code address slots).1.produced := by
  have hfills := fill_spec hplace.keepsSize (host.provider session.provider) slots host code address
    fun _ _ => rfl
  obtain ⟨rest, hrecords⟩ := hfills.produced
  have htiles := tiles_records hecho hplace (host.provider session.provider) code address
  have hstops := stopsAt_records hplace.keepsSize (host.provider session.provider) code address
  have hwithin := hstops.le_length
  rw [← hrecords] at htiles hwithin
  rw [coveredBytes_append] at hwithin
  exact (tiles_of_append htiles).tiling (Nat.le_trans (Nat.le_add_right _ _) hwithin)

theorem combined_tiling (hecho : session.backend.Echoes) (hplace : session.backend.KeepsPlace)
    (hjoins : session.backend.Joins) (writer : Provider) (code : List UInt8) (address : UInt64)
    (count : Nat) :
    Tiling address code
        (session.backend.offerUpTo count [] (session.records writer code address)) ∧
      (count = 0 → session.StopsAt code address (coveredBytes
        (session.backend.offerUpTo count [] (session.records writer code address)))) := by
  have htiles := tiles_records hecho hplace writer code address
  have hstops := stopsAt_records hplace.keepsSize writer code address
  obtain ⟨hoffered, hle, heq⟩ := Backend.tiles_offerUpTo hjoins count [] _ htiles
  constructor
  · exact hoffered.tiling (Nat.le_trans hle hstops.le_length)
  · intro hzero
    rw [heq hzero]
    exact hstops

theorem joins_of_combine (h : session.backend.combine = X86.combine ∨
    session.backend.combine = Toy.combine ∨ session.backend.combine = .apart) :
    session.backend.Joins := by
  intro insn last
  rcases h with h | h | h <;> rw [h]
  · exact X86.joins_combine insn last
  · exact Toy.joins_combine insn last
  · exact .apart last

theorem insns_of_disasmAll (hkeep : session.backend.KeepsSize)
    (hfree : (host.provider session.provider).NeverRefuses) {instructions : Instructions}
    (h : (session.disasmAll host code address count).1 = .ok instructions) :
    instructions.insns = session.backend.offerUpTo count []
      (session.records (host.provider session.provider) code address) := by
  have hinsns := insns_of_neverRefuses hkeep hfree code address count
  rw [h] at hinsns
  unfold regionOf at hinsns
  split at hinsns
  · exact Except.ok.inj hinsns
  · cases hinsns

end Session

namespace CommandLine

variable {args : Args} {files : Files} {decoder : Arch → Decoder} {code : List UInt8}
  {config : SessionConfig} {session : Session} {host : Host}

/-- What a run prints once its session is open. -/
theorem run_opened (hcode : readCode args files = .ok code)
    (hconfig : sessionConfig args files = .ok config)
    (hopen : Session.ofConfig config (decoder config.arch) {} 0 = (.ok session, host)) :
    run args files decoder =
      match (session.disasmAll host code args.address args.count).1 with
      | .error error => .error ["disassemble", error.message]
      | .ok instructions => .ok
        { stdout := args.format.render instructions.insns args.address
          stderr := stopNotice args (coveredBytes instructions.insns) code.length } := by
  simp only [run, hcode, hconfig, bind, Except.bind, hopen]
  cases session.disasmAll host code args.address args.count with
  | mk result rest => cases result <;> rfl

/-- The program's sessions take their memory from the system, and their collaborator is that of
the configured family. -/
theorem session_opened
    (hopen : Session.ofConfig config (decoder config.arch) {} 0 = (.ok session, host)) :
    session.backend = config.arch.backend (decoder config.arch) ∧
      (host.provider session.provider).NeverRefuses := by
  have hopened := Session.ofConfig_opened config (decoder config.arch) {} 0
  rw [hopen] at hopened
  cases hopened with
  | opened hbackend hgrant _ hexchange =>
    have hprovider : session.provider = 0 := by rw [Session.provider, hgrant]
    rw [hprovider]
    exact ⟨hbackend, hexchange.neverRefuses Provider.neverRefuses_system⟩

/-- The notice after a dynamic decode: there is one where no count was asked for and the code goes
on behind the last record. -/
theorem stopNotice_of_disasmAll (hecho : session.backend.Echoes)
    (hplace : session.backend.KeepsPlace) (hjoins : session.backend.Joins)
    (hfree : (host.provider session.provider).NeverRefuses) {instructions : Instructions}
    (hok : (session.disasmAll host code args.address args.count).1 = .ok instructions)
    {stop : Nat} (hstop : session.StopsAt code args.address stop) :
    stopNotice args (coveredBytes instructions.insns) code.length =
      if args.count = 0 ∧ stop < code.length then
        "stopped at " ++ Numeral.hex (args.address + stop.toUInt64).toNat ++ ": "
          ++ toString stop ++ " of " ++ toString code.length ++ " bytes decoded\n"
      else "" := by
  unfold stopNotice
  by_cases hcount : args.count = 0
  · have hinsns := Session.insns_of_disasmAll hplace.keepsSize hfree hok
    obtain ⟨-, hcovered⟩ := Session.combined_tiling hecho hplace hjoins
      (host.provider session.provider) code args.address args.count
    rw [hinsns, (hcovered hcount).unique hstop]
    simp [hcount]
  · simp [hcount]

end CommandLine

open CommandLine in
/-- Fixed and dynamic decodes tile the code. Without a cap they end at the first place that cannot
be decoded, and this is where the program says that it stopped, unless the code ended there or a
count was asked for. -/
theorem decodes_tile_code :
    (∀ (session : Session) (host : Host) (code : List UInt8) (address : UInt64),
      session.backend.Echoes → session.backend.KeepsPlace →
      (session.backend.combine = X86.combine ∨ session.backend.combine = Toy.combine ∨
        session.backend.combine = .apart) →
      (host.provider session.provider).NeverRefuses →
      (∀ slots, Tiling address code (session.disasm host code address slots).1.produced ∧
        (code.length ≤ slots.length →
          session.Exhausts code address (session.disasm host code address slots).1.produced)) ∧
      (∀ count,
        (code.length ≤ maxRecords →
          ∃ instructions, (session.disasmAll host code address count).1 = .ok instructions) ∧
        ∀ instructions, (session.disasmAll host code address count).1 = .ok instructions →
          Tiling address code instructions.insns ∧
          (count = 0 → session.Exhausts code address instructions.insns))) ∧
    (∀ args files decoder code config session host,
      readCode args files = .ok code → sessionConfig args files = .ok config →
      Session.ofConfig config (decoder config.arch) {} 0 = (.ok session, host) →
      (code.length ≤ maxRecords → ∃ output, run args files decoder = .ok output) ∧
      ∃ stop, session.StopsAt code args.address stop ∧
        ∀ output, run args files decoder = .ok output → output.stderr =
          if args.count = 0 ∧ stop < code.length then
            "stopped at " ++ Numeral.hex (args.address + stop.toUInt64).toNat ++ ": "
              ++ toString stop ++ " of " ++ toString code.length ++ " bytes decoded\n"
          else "") := by
  constructor
  · intro session host code address hecho hplace hcombine hfree
    have hjoins := Session.joins_of_combine hcombine
    have hkeep := hplace.keepsSize
    constructor
    · intro slots
      refine ⟨Session.produced_tiling hecho hplace host code address slots, ?_⟩
      intro hslots
      rw [Session.produced_of_neverRefuses hkeep hfree hslots]
      exact (Session.stopsAt_records hkeep _ code address).exhausts
    · intro count
      refine ⟨Session.exists_disasmAll hkeep hfree, ?_⟩
      intro instructions hok
      obtain ⟨htiling, hstops⟩ := Session.combined_tiling hecho hplace hjoins
        (host.provider session.provider) code address count
      rw [Session.insns_of_disasmAll hkeep hfree hok]
      exact ⟨htiling, fun hzero => (hstops hzero).exhausts⟩
  · intro args files decoder code config session host hcode hconfig hopen
    -- The program's decode is a dynamic one, on a system that refuses nothing.
    obtain ⟨hbackend, hfree⟩ := session_opened hopen
    have hecho : session.backend.Echoes := hbackend ▸ config.arch.echoes_backend _
    have hplace : session.backend.KeepsPlace := hbackend ▸ config.arch.keepsPlace_backend _
    have hkeep := hplace.keepsSize
    have hjoins : session.backend.Joins := by
      apply Session.joins_of_combine
      rw [hbackend]
      exact (config.arch.combine_backend _).imp_right .inr
    have hrun := run_opened hcode hconfig hopen
    have hstop := Session.stopsAt_records hkeep (host.provider session.provider) code args.address
    refine ⟨?_, _, hstop, ?_⟩
    · intro hfits
      obtain ⟨instructions, hok⟩ := Session.exists_disasmAll hkeep hfree hfits
      rw [hok] at hrun
      exact ⟨_, hrun⟩
    · intro output houtput
      rw [hrun] at houtput
      split at houtput
      · cases houtput
      · next instructions hok =>
        cases houtput
        exact stopNotice_of_disasmAll hecho hplace hjoins hfree hok hstop

/-- A prefix at the last address, and a run of the program on a `nop` there with a byte behind it
that is no instruction. -/
theorem decodes_tile_code_at_last_address :
    let decoder : Decoder :=
      { Decoder.silent with
        decode := fun _ code _ =>
          if code.head? = some 0x90 then some ⟨1, 1, "nop", "", none⟩ else none }
    (Toy.session 0).Exhausts [0xf0, 0x0f, 0x90, 0xff] 0xffffffffffffffff
        ((Toy.session 0).disasm {} [0xf0, 0x0f, 0x90, 0xff] 0xffffffffffffffff
          (List.replicate 4 {})).1.produced ∧
      ∃ output, CommandLine.run { hex := some "90ff", file := none, address := 0xffffffffffffffff }
          (fun _ => .error "") (fun _ => decoder) = .ok output ∧
        output.stderr = "stopped at 0x0: 1 of 2 bytes decoded\n" := by
  intro decoder
  refine ⟨?_, ?_⟩
  · have htoy := decodes_tile_code.1 (Toy.session 0) {} [0xf0, 0x0f, 0x90, 0xff] 0xffffffffffffffff
      Toy.echoes_backend Toy.keepsPlace_backend (.inr (.inl rfl)) Provider.neverRefuses_system
    exact (htoy.1 (List.replicate 4 {})).2 (by decide)
  · obtain ⟨hruns, stop, hstops, hnotice⟩ := decodes_tile_code.2
      { hex := some "90ff", file := none, address := 0xffffffffffffffff } (fun _ => .error "")
      (fun _ => decoder) [0x90, 0xff] { arch := .x86 } _ _ rfl rfl rfl
    obtain ⟨output, hrun⟩ := hruns (by decide)
    have hone : stop = 1 := hstops.unique <| @Session.StopsAt.later _ _ _
      { address := 0xffffffffffffffff, size := 1, opcode := 1, mnemonic := "nop", opStr := "" }
      0 rfl
      (.here (.inr (.inl rfl)))
    refine ⟨output, hrun, ?_⟩
    rw [hnotice output hrun, hone]
    decide +kernel

end Disassembly
