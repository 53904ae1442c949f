import Disassembly.Engine
import Disassembly.Proofs.Decode.Payloads
import Disassembly.Proofs.Engine.Names
import Disassembly.Proofs.Session.Opening
/-!
# What is charged for

Everything that is alive costs its provider a number of bytes that can be told from the thing
itself. In a sound engine the blocks behind everything alive are exactly those that are charged
for. Sums of bytes are compared modulo `2 ^ 64`, as the counters wrap.
-/
namespace Disassembly

open Grant (heldBytes heldBlocks)

structure Charge where
  provider : ProviderId
  bytes : Nat

namespace Charge

def bytesOf (id : ProviderId) (charges : List Charge) : Nat :=
  ((charges.filter fun charge => charge.provider == id).map bytes).sum

def blocksOf (id : ProviderId) (charges : List Charge) : Nat :=
  (charges.filter fun charge => charge.provider == id).length

end Charge

/-- A detail payload costs 216 bytes and 24 for each operand that its list has room for. -/
def Insn.charges (insn : Insn) : List Charge :=
  insn.detail.toList.map fun payload =>
    ⟨payload.grant.provider, 216 + 24 * payload.value.capacity⟩

def Output.charges : Output → List Charge
  | slots insns => insns.flatMap Insn.charges
  | region instructions =>
    instructions.insns.flatMap Insn.charges ++
      if instructions.insns.isEmpty then []
      else [⟨instructions.grant.provider, 200 * instructions.insns.length⟩]

/-- A session costs 128 bytes, and its register table 24, 24 for each of 512 registers, and the
bytes of their names. -/
def Session.charges (session : Session) : List Charge :=
  (session.sideTable.toList.map fun table =>
    ⟨table.grant.provider,
      24 + 512 * 24 + RegisterTable.nameBytes table.value.names⟩) ++
    [⟨session.grant.provider, 128⟩]

def Engine.charges (engine : Engine) : List Charge :=
  engine.outputs.values.flatMap Output.charges ++ engine.sessions.values.flatMap Session.charges

structure Charged (grants : List Grant) (charges : List Charge) : Prop where
  bytes : ∀ id, heldBytes id grants % 2 ^ 64 = Charge.bytesOf id charges % 2 ^ 64
  blocks : ∀ id, heldBlocks id grants = Charge.blocksOf id charges

namespace Charged

theorem nil : Charged [] [] := ⟨fun _ => rfl, fun _ => rfl⟩

theorem append {a b : List Grant} {c d : List Charge} (h : Charged a c) (k : Charged b d) :
    Charged (a ++ b) (c ++ d) := by
  constructor
  · intro id
    have h1 := h.bytes id
    have h2 := k.bytes id
    simp only [Charge.bytesOf, Grant.heldBytes_append, List.filter_append, List.map_append,
      List.sum_append] at h1 h2 ⊢
    omega
  · intro id
    have h1 := h.blocks id
    have h2 := k.blocks id
    simp only [Charge.blocksOf, Grant.heldBlocks_append, List.filter_append,
      List.length_append] at h1 h2 ⊢
    omega

theorem flatMap {α : Type} {things : List α} {grants : α → List Grant}
    {charges : α → List Charge} (h : ∀ thing ∈ things, Charged (grants thing) (charges thing)) :
    Charged (things.flatMap grants) (things.flatMap charges) := by
  induction things with
  | nil => exact nil
  | cons thing things ih =>
    rw [List.flatMap_cons, List.flatMap_cons]
    exact (h thing List.mem_cons_self).append
      (ih fun other hmem => h other (List.mem_cons_of_mem _ hmem))

theorem single {grant : Grant} {bytes : Nat} (hheld : grant.held = true)
    (hsize : grant.size.toNat = bytes % 2 ^ 64) : Charged [grant] [⟨grant.provider, bytes⟩] := by
  constructor
  · intro id
    rw [Grant.heldBytes_singleton, Charge.bytesOf, List.filter_cons, List.filter_nil]
    by_cases hid : grant.provider = id
    · simp [hheld, hid, hsize]
    · simp [hid]
  · intro id
    rw [Grant.heldBlocks_singleton, Charge.blocksOf, List.filter_cons, List.filter_nil]
    by_cases hid : grant.provider = id
    · simp [hheld, hid]
    · simp [hid]

theorem of_not_held {grant : Grant} (hheld : grant.held = false) : Charged [grant] [] := by
  constructor
  · intro id
    simp [Grant.heldBytes_singleton, hheld, Charge.bytesOf]
  · intro id
    simp [Grant.heldBlocks_singleton, hheld, Charge.blocksOf]

theorem paid {α : Type} [Footprint α] (id : ProviderId) (value : α) :
    Charged [(Payload.paid id value).grant]
      [⟨id, Footprint.inlineBytes α + Footprint.heapBytes value⟩] := by
  apply single rfl
  simp [Payload.paid, Footprint.cost]

end Charged

theorem Insn.Paid.charged {insn : Insn} (h : insn.Paid) : Charged insn.grants insn.charges := by
  unfold grants charges
  cases hdetail : insn.detail with
  | none => exact .nil
  | some payload =>
    have hpaid := h payload hdetail
    simp only [Option.map_some, Option.toList_some, List.map_cons, List.map_nil]
    rw [hpaid]
    exact .paid payload.grant.provider payload.value

theorem Insn.AllPaid.charged {insns : List Insn} (h : AllPaid insns) :
    Charged (allGrants insns) (insns.flatMap Insn.charges) :=
  .flatMap fun insn hmem => (h insn hmem).charged

/-- A session that was opened, with a collaborator that keeps to its part. -/
structure Session.Sound (session : Session) : Prop where
  backend : session.backend.Honest
  grant : session.grant = { provider := session.provider, size := sessionBytes, held := true }
  table : ∀ table, session.sideTable = some table → RegisterTable.Kept session.provider table

theorem Session.Sound.charged {session : Session} (h : session.Sound) :
    Charged session.grants session.charges := by
  unfold grants charges
  apply Charged.append
  · cases htable : session.sideTable with
    | none => exact .nil
    | some table =>
      obtain ⟨name, hkept⟩ := h.table table htable
      have hcost : Footprint.inlineBytes RegisterTable + Footprint.heapBytes table.value =
          24 + 512 * 24 + RegisterTable.nameBytes table.value.names := by
        have hsize : table.value.size = RegisterTable.slots := by
          rw [hkept]
          exact RegisterTable.size_collect name RegisterTable.slots
        rw [RegisterTable.size] at hsize
        simp only [Footprint.inlineBytes, Footprint.heapBytes, hsize, RegisterTable.slots]
        omega
      have hpaid := Charged.paid session.provider table.value
      rw [hcost] at hpaid
      have hgrant : table.grant = (Payload.paid session.provider table.value).grant := by
        rw [hkept]
        rfl
      simp only [Option.map_some, Option.toList_some, List.map_cons, List.map_nil, hgrant]
      exact hpaid
  · rw [h.grant]
    exact .single rfl rfl

def Output.Sound : Output → Prop
  | slots insns => Insn.AllPaid insns
  | region instructions =>
    Insn.AllPaid instructions.insns ∧ instructions.Paid instructions.grant.provider

theorem Output.Sound.charged {output : Output} (h : output.Sound) :
    Charged output.grants output.charges := by
  cases output with
  | slots insns => exact Insn.AllPaid.charged h
  | region instructions =>
    obtain ⟨hinsns, hpaid⟩ := h
    apply hinsns.charged.append
    -- An empty result has no region, and so there is no block to pay for.
    by_cases hempty : instructions.insns.isEmpty
    · have hzero : instructions.insns.length = 0 := by simpa using hempty
      have hheld : instructions.grant.held = false := by
        simpa [hzero] using hpaid.held
      rw [if_pos hempty]
      exact .of_not_held hheld
    · have hsome : instructions.insns.length ≠ 0 := by simpa using hempty
      have hsize := hpaid.toNat_size
      have hlt := instructions.grant.size.toNat_lt
      rw [if_neg hempty]
      exact .single (hpaid.held.2 hsome) (by omega)

/-- An engine in which no name is given twice and everything alive is sound. -/
structure Engine.Sound (engine : Engine) : Prop where
  sessionNames : engine.sessions.Distinct
  outputNames : engine.outputs.Distinct
  sessions : ∀ session ∈ engine.sessions.values, session.Sound
  outputs : ∀ output ∈ engine.outputs.values, output.Sound

theorem Engine.Sound.charged {engine : Engine} (h : engine.Sound) :
    Charged engine.grants engine.charges :=
  .append (.flatMap fun output hmem => (h.outputs output hmem).charged)
    (.flatMap fun session hmem => (h.sessions session hmem).charged)

end Disassembly
