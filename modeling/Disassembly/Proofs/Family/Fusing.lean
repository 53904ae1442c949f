import Disassembly.Proofs.Decode.Region
import Disassembly.Proofs.Family.NormalForm
import Disassembly.Proofs.Text.Fields
/-!
# What fusing takes and what it leaves

When x86 folds a record into the one before it is said here in terms of sizes and addresses as
numbers, and so is every field of the record that comes of it. Nothing is written before all four
conditions are checked, and by then every range of bytes that is copied lies within its field.
-/
namespace Disassembly

namespace Field

variable {size : Nat}

def slice? (field : Field size) (stop : Nat) : Option (List UInt8) :=
  if stop ≤ size then some (field.bytes.take stop) else none

def overwrite? (field : Field size) (start stop : Nat) (bytes : List UInt8) :
    Option (Field size) :=
  if h : start ≤ stop ∧ stop ≤ size ∧ bytes.length = stop - start then
    some
      { bytes := field.bytes.take start ++ bytes ++ field.bytes.drop stop
        length_bytes := by
          simp only [List.length_append, List.length_take, List.length_drop, field.length_bytes, h]
          omega }
  else none

theorem slice?_eq_some {field : Field size} {stop : Nat} (h : stop ≤ size) :
    field.slice? stop = some (field.bytes.take stop) := if_pos h

theorem length_take_bytes {field : Field size} {stop : Nat} (h : stop ≤ size) :
    (field.bytes.take stop).length = stop := by
  rw [List.length_take, field.length_bytes]
  omega

theorem overwrite?_overwrite? {first second : List UInt8}
    (h : first.length + second.length ≤ size) :
    ∃ half : Field size, (zero size).overwrite? 0 first.length first = some half ∧
      half.overwrite? first.length (first.length + second.length) second =
        some (ofBytes size (first ++ second)) := by
  have hfirst : 0 ≤ first.length ∧ first.length ≤ size ∧ first.length = first.length - 0 := by
    omega
  have hsecond : first.length ≤ first.length + second.length ∧
      first.length + second.length ≤ size ∧
      second.length = first.length + second.length - first.length := by
    omega
  refine ⟨_, dif_pos hfirst, ?_⟩
  rw [overwrite?, dif_pos hsecond]
  congr 1
  ext1
  rw [bytes_ofBytes_of_length_le (by rwa [List.length_append])]
  simp [zero, List.drop_append, Nat.sub_sub]

end Field

def addSizes? (a b : UInt16) : Option UInt16 :=
  if a.toNat + b.toNat < UInt16.size then some (a + b) else none

namespace X86

/-- `last` is a `wait` directly before `insn`, a form that does not wait, and one record has room
for both. -/
structure Fusible (last insn : Insn) (waiting : String) : Prop where
  form : (insn.mnemonic.text, waiting) ∈ waitForms
  wait : last.mnemonic.text = "wait"
  adjacent : (last.address.toNat + last.size.toNat) % 2 ^ 64 = insn.address.toNat
  room : last.size.toNat + insn.size.toNat ≤ insnBytes

/-- `new` starts where `last` does and has the bytes of both, and is `insn` in everything else. -/
structure Joined (last insn : Insn) (waiting : String) (new : Insn) : Prop where
  address : new.address = last.address
  size : new.size.toNat = last.size.toNat + insn.size.toNat
  bytes : new.bytes.bytes = last.bytes.bytes.take last.size.toNat ++
    insn.bytes.bytes.take insn.size.toNat ++
      List.replicate (insnBytes - (last.size.toNat + insn.size.toNat)) 0
  id : new.id = insn.id
  mnemonic : new.mnemonic.text = waiting
  opStr : new.opStr = .ofText _ insn.opStr.text
  operands : insn.opStr.Terminated → new.opStr.text = insn.opStr.text
  detail : new.detail = insn.detail

theorem waitingForm?_eq_some {mnemonic waiting : String} :
    waitingForm? mnemonic = some waiting ↔ (mnemonic, waiting) ∈ waitForms := by
  constructor
  · exact mem_waitForms
  · intro hmem
    have hforms : ∀ form ∈ waitForms, waitingForm? form.1 = some form.2 := by
      decide
    exact hforms _ hmem

theorem text_waiting {mnemonic waiting : String} (h : (mnemonic, waiting) ∈ waitForms) :
    (Field.ofText mnemonicLen waiting).text = waiting := by
  have hforms : ∀ form ∈ waitForms,
      '\x00' ∉ form.2.toList ∧ Utf8.byteSize form.2.toList ≤ mnemonicLen - 1 := by
    decide
  obtain ⟨hzero, hfits⟩ := hforms _ h
  exact Field.text_ofText_of_fits hzero hfits

variable {last insn : Insn} {waiting : String}

theorem next_eq_iff : last.next = insn.address ↔
    (last.address.toNat + last.size.toNat) % 2 ^ 64 = insn.address.toNat := by
  rw [← UInt64.toNat_inj, Insn.next, UInt64.toNat_add, UInt16.toNat_toUInt64]

theorem fusible_iff : Fusible last insn waiting ↔
    waitingForm? insn.mnemonic.text = some waiting ∧ precedes last insn = true := by
  simp only [precedes, Bool.and_eq_true, beq_iff_eq, decide_eq_true_eq, next_eq_iff,
    waitingForm?_eq_some]
  constructor
  · intro h
    exact ⟨h.form, ⟨h.wait, h.adjacent⟩, h.room⟩
  · rintro ⟨hform, ⟨hwait, hadjacent⟩, hroom⟩
    exact ⟨hform, hwait, hadjacent, hroom⟩

theorem Fusible.length_raw (h : Fusible last insn waiting) :
    last.raw.length = last.size.toNat ∧ insn.raw.length = insn.size.toNat := by
  have hroom := h.room
  exact ⟨Field.length_take_bytes (by omega), Field.length_take_bytes (by omega)⟩

theorem Fusible.joined (h : Fusible last insn waiting) :
    Joined last insn waiting (fused last insn waiting) := by
  obtain ⟨hlast, hinsn⟩ := h.length_raw
  have hlength : (last.raw ++ insn.raw).length = last.size.toNat + insn.size.toNat := by
    rw [List.length_append, hlast, hinsn]
  refine
    { address := rfl
      size := toNat_add_size h.room
      bytes := ?_
      id := rfl
      mnemonic := text_waiting h.form
      opStr := rfl
      operands := Field.text_ofText_text
      detail := rfl }
  rw [← hlength]
  exact Field.bytes_ofBytes_of_length_le (by rw [hlength]; exact h.room)

/-- Either the two records come together, and the first one's blocks are dropped, or no condition
would let them, and both stay as they are. -/
theorem combine_cases (insn : Insn) (last : Option Insn) :
    (∃ old waiting, last = some old ∧ Fusible old insn waiting ∧
      combine insn last =
        { folded := true
          insn := { insn with detail := none }
          last := some (fused old insn waiting)
          dropped := old.grants }) ∨
    ((¬ ∃ old waiting, last = some old ∧ Fusible old insn waiting) ∧
      combine insn last = .apart insn last) := by
  by_cases h : ∃ old waiting, last = some old ∧ Fusible old insn waiting
  · left
    obtain ⟨old, waiting, rfl, hfusible⟩ := h
    obtain ⟨hform, hprecedes⟩ := fusible_iff.1 hfusible
    refine ⟨old, waiting, rfl, hfusible, ?_⟩
    simp only [combine, hform, hprecedes, if_true]
  · right
    refine ⟨h, ?_⟩
    cases hform : waitingForm? insn.mnemonic.text with
    | none =>
      simp only [combine, hform]
    | some waiting =>
      cases last with
      | none => simp only [combine, hform]
      | some old =>
        have hprecedes : ¬ precedes old insn = true := by
          intro hprecedes
          exact h ⟨old, waiting, rfl, fusible_iff.2 ⟨hform, hprecedes⟩⟩
        simp only [combine, hform, hprecedes]
        rfl

/-- What one more record does to a list of them: it is folded in exactly under the four
conditions, and then the list but for its last record, and else everything, is left alone. -/
structure CombinesTo (insn : Insn) (tail : List Insn) (offer : Offer) (after : List Insn) :
    Prop where
  folded_iff : offer.folded = true ↔
    ∃ last waiting, tail.getLast? = some last ∧ Fusible last insn waiting
  folded : ∀ init last waiting, tail = init ++ [last] → Fusible last insn waiting →
    ∃ new, after = init ++ [new] ∧ Joined last insn waiting new ∧
      offer.insn = { insn with detail := none } ∧ offer.dropped = last.grants
  apart : offer.folded = false → after = tail ∧ offer.insn = insn ∧ offer.dropped = []

theorem Fusible.unique {other : String} (h : Fusible last insn waiting)
    (h' : Fusible last insn other) : waiting = other := by
  have hform := (fusible_iff.1 h).1
  rw [(fusible_iff.1 h').1] at hform
  exact (Option.some.inj hform).symm

theorem combinesTo (insn : Insn) (tail : List Insn) :
    CombinesTo insn tail (combine insn tail.getLast?)
      (Insn.withLast tail (combine insn tail.getLast?).last) := by
  rcases combine_cases insn tail.getLast? with
    ⟨old, waiting, hlast, hfusible, hcombine⟩ | ⟨hnot, hcombine⟩
  · obtain ⟨front, rfl⟩ := List.getLast?_eq_some_iff.1 hlast
    rw [hcombine]
    constructor
    · exact ⟨fun _ => ⟨old, waiting, hlast, hfusible⟩, fun _ => rfl⟩
    · intro init last other htail hother
      obtain ⟨rfl, hsingle⟩ := List.append_inj' htail rfl
      obtain rfl := List.singleton_inj.1 hsingle
      obtain rfl := hfusible.unique hother
      exact ⟨_, Insn.withLast_concat _ _ _, hfusible.joined, rfl, rfl⟩
    · intro hfolded
      cases hfolded
  · rw [hcombine]
    constructor
    · exact ⟨fun hfolded => absurd hfolded Bool.false_ne_true, fun h => absurd h hnot⟩
    · rintro init last waiting rfl hfusible
      exact absurd ⟨last, waiting, List.getLast?_concat, hfusible⟩ hnot
    · exact fun _ => ⟨Insn.withLast_getLast? tail, rfl, rfl⟩

end X86

namespace Buffer

theorem withLast_last (buffer : Buffer) : buffer.withLast buffer.last = buffer := by
  obtain ⟨staging, region, grant⟩ := buffer
  rcases List.eq_nil_or_concat staging with rfl | ⟨init, staged, rfl⟩
  · rcases List.eq_nil_or_concat region with rfl | ⟨init, moved, rfl⟩
    · rfl
    · simp [last, withLast, setLast]
  · simp [last, withLast, setLast]

end Buffer

namespace X86

/-- Combining with every slice and every sum checked, each where it is computed. -/
def combine? (insn : Insn) (last : Option Insn) : Option Offer :=
  match waitingForm? insn.mnemonic.text, last with
  | some mnemonic, some last =>
    if last.mnemonic.text ≠ "wait" ∨ last.next ≠ insn.address then some (.apart insn (some last))
    else
      let head := last.size.toNat
      let size := head + insn.size.toNat
      if insnBytes < size then some (.apart insn (some last))
      else do
        let bytes ← (Field.zero insnBytes).overwrite? 0 head (← last.bytes.slice? head)
        let bytes ← bytes.overwrite? head size (← insn.bytes.slice? insn.size.toNat)
        let size ← addSizes? last.size insn.size
        some
          { folded := true
            insn := { insn with detail := none }
            last := some
              { last with
                bytes, size
                id := insn.id
                mnemonic := .ofText _ mnemonic
                opStr := .ofText _ insn.opStr.text
                detail := insn.detail }
            dropped := last.grants }
  | _, last => some (.apart insn last)

/-- The conditions in the order in which they are checked. -/
theorem precedes_iff : precedes last insn = true ↔
    ¬ (last.mnemonic.text ≠ "wait" ∨ last.next ≠ insn.address) ∧
      ¬ insnBytes < last.size.toNat + insn.size.toNat := by
  simp only [precedes, Bool.and_eq_true, beq_iff_eq, decide_eq_true_eq, ne_eq, not_or, not_not,
    Nat.not_lt]

theorem combine?_of_fusible (h : Fusible last insn waiting) :
    combine? insn (some last) = some (combine insn (some last)) := by
  obtain ⟨hform, hprecedes⟩ := fusible_iff.1 h
  obtain ⟨hguards, hfits⟩ := precedes_iff.1 hprecedes
  obtain ⟨hlast, hinsn⟩ := h.length_raw
  have hroom : last.size.toNat + insn.size.toNat ≤ 16 := h.room
  have hhead : last.bytes.slice? last.size.toNat = some last.raw :=
    Field.slice?_eq_some (Nat.le_trans (Nat.le_add_right _ _) hroom)
  have hrest : insn.bytes.slice? insn.size.toNat = some insn.raw :=
    Field.slice?_eq_some (Nat.le_trans (Nat.le_add_left _ _) hroom)
  have hsum : addSizes? last.size insn.size = some (last.size + insn.size) :=
    if_pos (Nat.lt_of_le_of_lt hroom (by decide))
  have hboth : last.raw.length + insn.raw.length ≤ insnBytes := by
    rw [hlast, hinsn]
    exact hroom
  obtain ⟨half, hfirst, hsecond⟩ := Field.overwrite?_overwrite? hboth
  rw [hlast] at hfirst hsecond
  rw [hinsn] at hsecond
  simp only [combine?, combine, hform, hguards, hfits, hprecedes, hhead, hrest, hfirst, hsecond,
    hsum, if_true, if_false, Option.bind_eq_bind, Option.bind_some]
  rfl

theorem combine?_of_not_precedes (hform : waitingForm? insn.mnemonic.text = some waiting)
    (h : ¬ precedes last insn = true) :
    combine? insn (some last) = some (.apart insn (some last)) := by
  rw [precedes_iff, not_and_or, not_not, not_not] at h
  simp only [combine?, hform]
  by_cases hguards : last.mnemonic.text ≠ "wait" ∨ last.next ≠ insn.address
  · rw [if_pos hguards]
  · rw [if_neg hguards, if_pos (h.resolve_left hguards)]

/-- No slice and no sum is out of range when it comes to be computed. -/
theorem combine?_eq_some (insn : Insn) (last : Option Insn) :
    combine? insn last = some (combine insn last) := by
  cases hform : waitingForm? insn.mnemonic.text with
  | none => simp only [combine?, combine, hform]
  | some waiting =>
    cases last with
    | none => simp only [combine?, combine, hform]
    | some last =>
      by_cases hprecedes : precedes last insn = true
      · exact combine?_of_fusible (fusible_iff.2 ⟨hform, hprecedes⟩)
      · rw [combine?_of_not_precedes hform hprecedes]
        simp only [combine, hform, hprecedes]
        rfl

/-- A session that folds a record in gives back what the record before it held, and nothing
more. -/
theorem append_of_fusible {session : Session} (hcombine : session.backend.combine = combine)
    (host : Host) {buffer : Buffer} (hlast : buffer.toList.getLast? = some last)
    (hfusible : Fusible last insn waiting) (address : UInt64) (produced : Nat) :
    session.append host buffer insn address produced =
      (.ok (buffer.withLast (combine insn buffer.last).last, produced),
        (Grant.releaseAll last.grants host).note (.folded address)) := by
  rcases combine_cases insn (some last) with ⟨old, other, hold, -, hfused⟩ | ⟨hnot, -⟩
  · cases hold
    simp only [Session.append, hcombine, Buffer.last_eq, hlast, hfused]
    rfl
  · exact absurd ⟨last, waiting, rfl, hfusible⟩ hnot

/-- Combining is exact and changes nothing by halves. A list of records and the buffer of a decode
fare alike, nothing is ever computed out of range, and a session releases exactly the payload that
the fused record takes the place of. -/
theorem combine_exact (insn : Insn) :
    (∀ tail : List Insn,
      CombinesTo insn tail (combine insn tail.getLast?)
        (Insn.withLast tail (combine insn tail.getLast?).last)) ∧
    (∀ buffer : Buffer,
      let offer := combine insn buffer.last
      let after := buffer.withLast offer.last
      CombinesTo insn buffer.toList offer after.toList ∧
      after.staging.length = buffer.staging.length ∧
      after.region.length = buffer.region.length ∧ after.grant = buffer.grant ∧
      (offer.folded = false → after = buffer)) ∧
    (∀ last : Option Insn, combine? insn last = some (combine insn last)) ∧
    ∀ (session : Session) (host : Host) (buffer : Buffer) (last : Insn) (waiting : String)
      (address : UInt64) (produced : Nat),
      session.backend.combine = combine → buffer.toList.getLast? = some last →
      Fusible last insn waiting →
      session.append host buffer insn address produced =
        (.ok (buffer.withLast (combine insn buffer.last).last, produced),
          (Grant.releaseAll last.grants host).note (.folded address)) := by
  refine ⟨combinesTo insn, ?_, combine?_eq_some insn, ?_⟩
  · intro buffer offer after
    have hsome : offer.last.isSome = buffer.last.isSome := isSome_combine insn buffer.last
    have hlist : after.toList = Insn.withLast buffer.toList offer.last :=
      Buffer.toList_withLast hsome
    obtain ⟨hstaging, hregion⟩ := buffer.length_withLast offer.last
    refine ⟨?_, hstaging, hregion, buffer.grant_withLast offer.last, ?_⟩
    · rw [hlist]
      have hcombines := combinesTo insn buffer.toList
      rwa [← buffer.last_eq] at hcombines
    · intro hapart
      -- A record that is kept is put back in the place where it was.
      rcases combine_cases insn buffer.last with ⟨old, waiting, -, -, hfused⟩ | ⟨-, hkept⟩
      · have hfolded : offer.folded = true := congrArg Offer.folded hfused
        rw [hapart] at hfolded
        cases hfolded
      · have hlast : offer.last = buffer.last := congrArg Offer.last hkept
        have hafter : after = buffer.withLast buffer.last := congrArg buffer.withLast hlast
        rw [hafter, buffer.withLast_last]
  · intro session host buffer last waiting address produced hcombine hlast hfusible
    exact append_of_fusible hcombine host hlast hfusible address produced

/-- A `wait` at the last address, which holds a payload, and a form that does not wait behind it,
at address zero. -/
theorem combine_exact_past_the_end :
    let grant : Grant := { provider := 0, size := 216, held := true }
    let wait : Insn :=
      { id := 1, address := 0xffffffffffffffff, size := 1, bytes := .ofBytes _ [0x9b]
        mnemonic := .ofText _ "wait", detail := some ⟨.ofReported [] [] [] (.x86 []), grant⟩ }
    let store : Insn :=
      { id := 2, address := 0, size := 2, bytes := .ofBytes _ [0xdf, 0xe0]
        mnemonic := .ofText _ "fnstsw", opStr := .ofText _ "ax" }
    let buffer : Buffer := { staging := [], region := [.blank 7 1, wait], grant := .empty 0 }
    let offer := combine store buffer.last
    offer.folded = true ∧ offer.dropped = [grant] ∧
      ∃ new, (buffer.withLast offer.last).toList = [.blank 7 1, new] ∧ new.size = 3 ∧
        new.bytes = .ofBytes _ [0x9b, 0xdf, 0xe0] ∧ new.mnemonic.text = "fstsw" ∧
        new.opStr.text = "ax" ∧ new.detail = none := by
  intro grant wait store buffer offer
  have hfusible : Fusible wait store "fstsw" :=
    ⟨by decide +kernel, by decide +kernel, by decide, by decide⟩
  obtain ⟨hcombines, -⟩ := (combine_exact store).2.1 buffer
  obtain ⟨new, hlist, hjoined, -, hdropped⟩ :=
    hcombines.folded [.blank 7 1] wait "fstsw" rfl hfusible
  have hterminated : store.opStr.Terminated := Field.terminated_ofText (by decide) "ax"
  refine ⟨hcombines.folded_iff.2 ⟨wait, "fstsw", rfl, hfusible⟩, hdropped, new, hlist,
    UInt16.toNat_inj.1 hjoined.size, Field.ext hjoined.bytes, hjoined.mnemonic, ?_,
    hjoined.detail⟩
  rw [hjoined.operands hterminated]
  exact Field.text_ofText_of_fits (by decide) (by decide)

end X86

end Disassembly
