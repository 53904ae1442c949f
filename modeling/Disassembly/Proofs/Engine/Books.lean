import Disassembly.Proofs.Engine.Steps
/-!
# The books balance

After every run of the engine, of whatever operations, the counters of a provider are those of
everything alive that it granted. When nothing is alive any more, they are back at zero.
-/
namespace Disassembly

def Provider.Fresh (provider : Provider) : Prop :=
  ∀ ledger, provider = .tracking ledger → ledger.liveBytes = 0 ∧ ledger.liveBlocks = 0

theorem Provider.Fresh.counters {provider : Provider} (h : provider.Fresh) :
    provider.liveBytes = 0 ∧ provider.liveBlocks = 0 := by
  cases provider with
  | tracking ledger =>
    obtain ⟨hbytes, hblocks⟩ := h ledger rfl
    simp [liveBytes, liveBlocks, ledger?, hbytes, hblocks]
  | system | unwritable => exact ⟨rfl, rfl⟩

/-- An operation that drops a session or a result. -/
inductive Op.Ends : Op → Prop where
  | close (name : String) : Ends (.close (some name))
  | dropSession (name : String) : Ends (.dropSession (some name))
  | free (out : String) : Ends (.free out)

def Op.EndsSession (name : String) (op : Op) : Prop :=
  op = .close (some name) ∨ op = .dropSession (some name)

namespace Engine

variable {engine : Engine} {providers : List Provider} {op : Op}

theorem sound_start (providers : List Provider) : (start providers).Sound :=
  ⟨Named.distinct_empty, Named.distinct_empty, fun _ h => absurd h List.not_mem_nil,
    fun _ h => absurd h List.not_mem_nil⟩

theorem fresh_start (h : ∀ provider ∈ providers, provider.Fresh) (id : ProviderId) :
    ((start providers).host.provider id).Fresh := by
  have hsystem : Provider.Fresh .system := fun ledger hledger => by cases hledger
  have hmem : (start providers).host.provider id ∈ Provider.system :: providers := by
    simp only [start, Host.provider, List.getD_eq_getElem?_getD]
    cases hget : (Provider.system :: providers)[id]? with
    | none => exact List.mem_cons_self
    | some provider => exact List.mem_of_getElem? hget
  rcases List.mem_cons.1 hmem with hfirst | hmem
  · rw [hfirst]
    exact hsystem
  · exact h _ hmem

/-- What a fresh provider counts once some blocks are held. -/
theorem counters_of_exchange {host host' : Host} {grants : List Grant} {id : ProviderId}
    (hfresh : (host.provider id).Fresh) (hexchange : host.Exchange [] host' grants)
    {ledger : Ledger} (hledger : host'.provider id = .tracking ledger) :
    ledger.liveBytes.toNat = Grant.heldBytes id grants % 2 ^ 64 ∧
      ledger.liveBlocks.toNat = Grant.heldBlocks id grants % 2 ^ 64 := by
  obtain ⟨hbytes, hblocks⟩ := hfresh.counters
  have hcounts : (host.provider id).counts := by
    rw [← Provider.counts_of_reset (hexchange.reset id), hledger]
    rfl
  have h1 := hexchange.bytes id hcounts
  have h2 := hexchange.blocks id hcounts
  have := ledger.liveBytes.toNat_lt
  have := ledger.liveBlocks.toNat_lt
  rw [hledger, hbytes, Grant.heldBytes_nil] at h1
  rw [hledger, hblocks, Grant.heldBlocks_nil] at h2
  simp only [Provider.liveBytes, Provider.liveBlocks, Provider.ledger?, Option.map_some,
    Option.getD_some] at h1 h2
  omega

theorem counters_of_run (hfresh : ∀ provider ∈ providers, provider.Fresh) (ops : List Op)
    (id : ProviderId) {ledger : Ledger}
    (hledger : ((start providers).run ops).host.provider id = .tracking ledger) :
    ledger.liveBytes.toNat = Charge.bytesOf id ((start providers).run ops).charges % 2 ^ 64 ∧
      ledger.liveBlocks.toNat =
        Charge.blocksOf id ((start providers).run ops).charges % 2 ^ 64 := by
  have hmoves := run_moves (sound_start providers) ops
  have hcharged := hmoves.sound.charged
  rw [← hcharged.bytes id, ← hcharged.blocks id]
  exact counters_of_exchange (fresh_start hfresh id) hmoves.exchange hledger

theorem charges_of_nothing (hsessions : engine.sessions.values = [])
    (houtputs : ∀ output ∈ engine.outputs.values, output.charges = []) : engine.charges = [] := by
  rw [charges, hsessions, List.flatMap_nil, List.append_nil]
  exact List.flatMap_eq_nil_iff.2 houtputs

theorem balanced_of_nothing (hfresh : ∀ provider ∈ providers, provider.Fresh) (ops : List Op)
    (hsessions : ((start providers).run ops).sessions.values = [])
    (houtputs : ∀ output ∈ ((start providers).run ops).outputs.values, output.charges = [])
    (id : ProviderId) {ledger : Ledger}
    (hledger : ((start providers).run ops).host.provider id = .tracking ledger) :
    ledger.isBalanced = true := by
  obtain ⟨hbytes, hblocks⟩ := counters_of_run hfresh ops id hledger
  rw [charges_of_nothing hsessions houtputs] at hbytes hblocks
  have hzero : ledger.liveBytes = 0 ∧ ledger.liveBlocks = 0 :=
    ⟨UInt64.toNat_inj.1 hbytes, UInt64.toNat_inj.1 hblocks⟩
  rw [Ledger.isBalanced, hzero.1, hzero.2]
  rfl

theorem endSession_getD (engine : Engine) (name : String) (finish : Session → Host → Host) :
    ((engine.endSession (some name) finish).getD engine).sessions = engine.sessions.erase name ∧
      ((engine.endSession (some name) finish).getD engine).outputs = engine.outputs := by
  unfold endSession session?
  cases hfind : engine.sessions.find? name with
  | none => simp [hfind, Named.erase_of_find?_eq_none]
  | some session => simp [hfind]

theorem step_close (engine : Engine) (name : Option String) :
    (engine.step (.close name)).2 = (engine.endSession name Session.close).getD engine := by
  unfold step
  dsimp only
  split <;> next h => rw [h]; rfl

theorem step_dropSession (engine : Engine) (name : Option String) :
    (engine.step (.dropSession name)).2 = (engine.endSession name Session.drop).getD engine := by
  unfold step
  dsimp only
  split <;> next h => rw [h]; rfl

theorem step_free (engine : Engine) (out : String) :
    (engine.step (.free out)).2.sessions = engine.sessions ∧
      (engine.step (.free out)).2.outputs = engine.outputs.erase out := by
  unfold step dropOutput
  cases hfind : engine.outputs.find? out with
  | none => simp [hfind, Named.erase_of_find?_eq_none]
  | some output => simp [hfind]

theorem names_of_endSession {name : String} {finish : Session → Host → Host}
    (hstep : (engine.step op).2 = (engine.endSession (some name) finish).getD engine)
    (hends : ∀ other, op.EndsSession other → other = name) (hkeeps : ∀ out, op ≠ .free out)
    (other : String) :
    (other ∈ (engine.step op).2.sessions.names →
      other ∈ engine.sessions.names ∧ ¬ op.EndsSession other) ∧
    (other ∈ (engine.step op).2.outputs.names →
      other ∈ engine.outputs.names ∧ op ≠ .free other) := by
  obtain ⟨hsessions, houtputs⟩ := endSession_getD engine name finish
  rw [hstep, hsessions, houtputs, Named.mem_names_erase]
  constructor
  · rintro ⟨hmem, hne⟩
    exact ⟨hmem, fun h => hne (hends other h)⟩
  · intro hmem
    exact ⟨hmem, hkeeps other⟩

theorem names_of_step (h : op.Ends) (engine : Engine) (other : String) :
    (other ∈ (engine.step op).2.sessions.names →
      other ∈ engine.sessions.names ∧ ¬ op.EndsSession other) ∧
    (other ∈ (engine.step op).2.outputs.names →
      other ∈ engine.outputs.names ∧ op ≠ .free other) := by
  cases h with
  | close name =>
    refine names_of_endSession (step_close engine (some name)) ?_ ?_ other
    · rintro other (h | h) <;> cases h
      rfl
    · intro out h
      cases h
  | dropSession name =>
    refine names_of_endSession (step_dropSession engine (some name)) ?_ ?_ other
    · rintro other (h | h) <;> cases h
      rfl
    · intro out h
      cases h
  | free out =>
    obtain ⟨hsessions, houtputs⟩ := step_free engine out
    rw [hsessions, houtputs, Named.mem_names_erase]
    constructor
    · intro hmem
      refine ⟨hmem, ?_⟩
      rintro (h | h) <;> cases h
    · rintro ⟨hmem, hne⟩
      refine ⟨hmem, ?_⟩
      intro h
      cases h
      exact hne rfl

theorem names_of_run {ending : List Op} (h : ∀ op ∈ ending, op.Ends) (engine : Engine)
    (other : String) :
    (other ∈ (engine.run ending).sessions.names →
      other ∈ engine.sessions.names ∧ ∀ op ∈ ending, ¬ op.EndsSession other) ∧
    (other ∈ (engine.run ending).outputs.names →
      other ∈ engine.outputs.names ∧ .free other ∉ ending) := by
  induction ending generalizing engine with
  | nil =>
    constructor
    · intro hmem
      exact ⟨hmem, by simp⟩
    · intro hmem
      exact ⟨hmem, by simp⟩
  | cons op ending ih =>
    obtain ⟨hsessions, houtputs⟩ := names_of_step (h op List.mem_cons_self) engine other
    obtain ⟨hrest, hkept⟩ := ih (fun op hmem => h op (List.mem_cons_of_mem _ hmem))
      (engine.step op).2
    constructor
    · intro hmem
      obtain ⟨hafter, hnone⟩ := hrest hmem
      obtain ⟨hbefore, hfirst⟩ := hsessions hafter
      exact ⟨hbefore, List.forall_mem_cons.2 ⟨hfirst, hnone⟩⟩
    · intro hmem
      obtain ⟨hafter, hnone⟩ := hkept hmem
      obtain ⟨hbefore, hfirst⟩ := houtputs hafter
      refine ⟨hbefore, ?_⟩
      intro hfree
      rcases List.mem_cons.1 hfree with hfree | hfree
      · exact hfirst hfree.symm
      · exact hnone hfree

/-- After any run a provider counts exactly what is alive, a payload by the room in its list of
operands. Where no session is open and nothing that is kept costs anything it counts nothing, and
operations that drop everything, in any order, lead there. -/
theorem books_balance (hfresh : ∀ provider ∈ providers, provider.Fresh) (ops : List Op) :
    let engine := (start providers).run ops
    (∀ id ledger, engine.host.provider id = .tracking ledger →
      ledger.liveBytes.toNat = Charge.bytesOf id engine.charges % 2 ^ 64 ∧
        ledger.liveBlocks.toNat = Charge.blocksOf id engine.charges % 2 ^ 64) ∧
    (engine.sessions.values = [] → (∀ output ∈ engine.outputs.values, output.charges = []) →
      ∀ id ledger, engine.host.provider id = .tracking ledger → ledger.isBalanced = true) ∧
    (∀ ending : List Op, (∀ op ∈ ending, op.Ends) →
      (∀ name ∈ engine.sessions.names, ∃ op ∈ ending, op.EndsSession name) →
      (∀ out ∈ engine.outputs.names, .free out ∈ ending) →
      ∀ id ledger, (engine.run ending).host.provider id = .tracking ledger →
        ledger.isBalanced = true) ∧
    ∀ detail : Detail, detail.operands.length ≤ detail.capacity := by
  intro engine
  refine ⟨?_, ?_, ?_, Detail.length_le_capacity⟩
  · intro id ledger hledger
    exact counters_of_run hfresh ops id hledger
  · intro hsessions houtputs id ledger hledger
    exact balanced_of_nothing hfresh ops hsessions houtputs id hledger
  · intro ending hends hsessions houtputs id ledger hledger
    -- A run and its ending are one run, at whose end no name is left.
    have hrun : engine.run ending = (start providers).run (ops ++ ending) := List.foldl_append.symm
    have hnosession : (engine.run ending).sessions.values = [] := by
      apply Named.values_eq_nil
      intro name hmem
      obtain ⟨hbefore, hnone⟩ := (names_of_run hends engine name).1 hmem
      obtain ⟨op, hop, hname⟩ := hsessions name hbefore
      exact hnone op hop hname
    have hnooutput : (engine.run ending).outputs.values = [] := by
      apply Named.values_eq_nil
      intro out hmem
      obtain ⟨hbefore, hnone⟩ := (names_of_run hends engine out).2 hmem
      exact hnone (houtputs out hbefore)
    rw [hrun] at hledger hnosession hnooutput
    apply balanced_of_nothing hfresh (ops ++ ending) hnosession _ id hledger
    rw [hnooutput]
    exact fun _ hmem => absurd hmem List.not_mem_nil

/-- Two slots with details, of a session on a provider with a limit. The first is overwritten. -/
theorem books_balance_toy :
    let providers : List Provider := [.tracking { policy := .limit 100000 }]
    let ops : List Op := [.openSession "s" (.provider 1) .toy, .option (some "s") (.detail true),
      .disasm (some "s") "o" [0x90, 0x01, 0x02] 0 2 false, .overwrite "o" 0 0 0]
    (∀ provider ∈ providers, provider.Fresh) ∧
      ∃ ledger, ((start providers).run ops).host.provider 1 = .tracking ledger ∧
        ledger.liveBytes.toNat = 128 + (216 + 24) ∧ ledger.liveBlocks.toNat = 2 := by
  intro providers ops
  have hfresh : ∀ provider ∈ providers, provider.Fresh := by
    intro provider hmem ledger hledger
    rw [List.mem_singleton.1 hmem] at hledger
    cases hledger
    exact ⟨rfl, rfl⟩
  have hcounts : (((start providers).run ops).host.provider 1).counts = true := by decide +kernel
  refine ⟨hfresh, ?_⟩
  cases hledger : ((start providers).run ops).host.provider 1 with
  | tracking ledger =>
    obtain ⟨hbytes, hblocks⟩ := (books_balance hfresh ops).1 1 ledger hledger
    refine ⟨ledger, rfl, hbytes.trans ?_, hblocks.trans ?_⟩ <;> decide +kernel
  | system | unwritable =>
    rw [hledger] at hcounts
    cases hcounts

/-- One instruction with one operand, whose list has room for four. Its payload costs more than 216
bytes and 24 for the operand. -/
theorem room_is_charged :
    let decoder : Decoder :=
      { Decoder.silent with
        decode := fun _ _ _ =>
          some ⟨1, 1, "push", "eax", some ⟨[], [], [], [(.x86, .reg 19)], 4⟩⟩ }
    let ops : List Op :=
      [.openSession "s" (.provider 1) (.family .x86 .mode32 fun _ => decoder),
        .option (some "s") (.detail true), .disasm (some "s") "o" [0x50] 0 1 false]
    let engine := (start [.tracking {}]).run ops
    ((engine.outputs.find? "o").map fun output =>
        output.insns.map fun insn => insn.payload.map fun detail => detail.operands.length) =
      some [some 1] ∧
      (engine.host.provider 1).liveBytes = 128 + (216 + 24 * 4) ∧
      (engine.host.provider 1).liveBytes ≠ 128 + (216 + 24 * 1) := by
  decide +kernel

end Engine

end Disassembly
