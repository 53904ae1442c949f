import Disassembly.Proofs.Decode.Region
import Mathlib.Data.List.ModifyLast
/-!
# A buffer over its whole life

However records are pushed and whatever is done to the most recent one in between, a buffer stands
for the list that the same edits make of a plain one. The most recent record moves from the staged
ones to the region with every chunk, so what an edit of it finds depends on how many were pushed;
which record of the list that is does not.
-/
namespace Disassembly

theorem Insn.length_modifyLast (insns : List Insn) (change : Insn → Insn) :
    (insns.modifyLast change).length = insns.length := by
  rcases List.eq_nil_or_concat insns with rfl | ⟨init, last, rfl⟩
  · rfl
  · simp [List.modifyLast_concat]

theorem Insn.withLast_map (insns : List Insn) (change : Insn → Insn) :
    withLast insns (insns.getLast?.map change) = insns.modifyLast change := by
  rcases List.eq_nil_or_concat insns with rfl | ⟨init, last, rfl⟩
  · rfl
  · simp [withLast, List.modifyLast_concat]

namespace Buffer

/-- What is done to a buffer: a record is pushed, with the host as it is then, or the most recent
one is changed where it is. -/
inductive Edit where
  | push (host : Host) (insn : Insn)
  | alter (change : Insn → Insn)

namespace Edit

def isPush : Edit → Bool
  | push _ _ => true
  | alter _ => false

def perform (buffer : Buffer) : Edit → Except Error Buffer
  | push host insn => (buffer.push insn host).1
  | alter change => .ok (buffer.withLast (buffer.last.map change))

def onList (insns : List Insn) : Edit → List Insn
  | push _ insn => insns ++ [insn]
  | alter change => insns.modifyLast change

def Unrefused (id : ProviderId) : Edit → Prop
  | push host _ => (host.provider id).NeverRefuses
  | alter _ => True

end Edit

def pushes (edits : List Edit) : Nat := edits.countP Edit.isPush

def run (id : ProviderId) (edits : List Edit) : Except Error Buffer :=
  edits.foldlM Edit.perform (.empty id)

def plainRun (edits : List Edit) : List Insn := edits.foldl Edit.onList []

variable {id : ProviderId} {host host' : Host} {buffer buffer' : Buffer} {insn : Insn}
  {insns : List Insn} {edit : Edit} {edits : List Edit}

/-! ### Plain lists -/

theorem length_onList (insns : List Insn) (edit : Edit) :
    (edit.onList insns).length = insns.length + if edit.isPush then 1 else 0 := by
  cases edit with
  | push host insn => exact List.length_append
  | alter change => exact Insn.length_modifyLast insns change

theorem length_foldl_onList (edits : List Edit) (insns : List Insn) :
    (edits.foldl Edit.onList insns).length = insns.length + pushes edits := by
  induction edits generalizing insns with
  | nil => rfl
  | cons edit edits ih =>
    rw [List.foldl_cons, ih, length_onList, pushes, pushes, List.countP_cons]
    omega

theorem length_plainRun (edits : List Edit) : (plainRun edits).length = pushes edits := by
  rw [plainRun, length_foldl_onList, List.length_nil, Nat.zero_add]

/-! ### One edit -/

/-- A buffer that stands for a list, with less than a chunk staged and whole chunks in a region that
is paid for. -/
structure Chunked (id : ProviderId) (insns : List Insn) (buffer : Buffer) : Prop where
  list : buffer.toList = insns
  paid : buffer.Paid id
  staged : buffer.staging.length < chunkSize
  whole : chunkSize ∣ buffer.region.length

theorem chunked_empty (id : ProviderId) : (empty id).Chunked id [] :=
  ⟨toList_empty, paid_empty, Nat.two_pow_pos 6, Nat.dvd_zero _⟩

theorem Chunked.push (h : buffer.Chunked id insns)
    (hok : buffer.push insn host = (.ok buffer', host')) :
    buffer'.Chunked id (insns ++ [insn]) := by
  obtain ⟨rfl, hpaid, hstaged, hwhole⟩ := h
  have houtcome := push_outcome hpaid insn host
  rw [hok] at houtcome
  cases houtcome with
  | kept hlist hpaid' _ =>
    have hone : (buffer.stage insn).staging.length = buffer.staging.length + 1 :=
      List.length_append
    unfold Buffer.push at hok
    dsimp only at hok
    split at hok
    · next hfull =>
      -- The chunk is full: all records are in the region, one chunk more than before.
      have hempty := staging_of_flush hok
      have hregion : buffer'.region.length = buffer.region.length + chunkSize := by
        have hlength := congrArg List.length hlist
        simp only [toList, hempty, List.append_nil, List.length_append,
          List.length_singleton] at hlength
        omega
      refine ⟨hlist, hpaid', ?_, ?_⟩
      · rw [hempty]
        exact Nat.two_pow_pos 6
      · rw [hregion]
        exact Nat.dvd_add hwhole (Nat.dvd_refl _)
    · next hroom =>
      cases hok
      exact ⟨hlist, hpaid', by omega, hwhole⟩

theorem Chunked.alter (h : buffer.Chunked id insns) (change : Insn → Insn) :
    (buffer.withLast (buffer.last.map change)).Chunked id (insns.modifyLast change) := by
  obtain ⟨rfl, hpaid, hstaged, hwhole⟩ := h
  obtain ⟨hstaging, hregion⟩ := buffer.length_withLast (buffer.last.map change)
  refine ⟨?_, paid_withLast hpaid _, ?_, ?_⟩
  · rw [toList_withLast (by simp), last_eq, Insn.withLast_map]
  · rwa [hstaging]
  · rwa [hregion]

theorem Chunked.perform (h : buffer.Chunked id insns) (hok : edit.perform buffer = .ok buffer') :
    buffer'.Chunked id (edit.onList insns) := by
  cases edit with
  | push host insn =>
    have hpush : buffer.push insn host = (.ok buffer', (buffer.push insn host).2) :=
      Prod.ext hok rfl
    exact h.push hpush
  | alter change =>
    cases hok
    exact h.alter change

theorem Chunked.exists_perform (h : buffer.Chunked id insns) (hfree : edit.Unrefused id)
    (hfits : (edit.onList insns).length ≤ maxRecords) :
    ∃ buffer', edit.perform buffer = .ok buffer' := by
  cases edit with
  | alter change => exact ⟨_, rfl⟩
  | push host insn =>
    have houtcome := push_outcome h.paid insn host
    rw [h.list] at houtcome
    rw [Edit.perform]
    generalize buffer.push insn host = result at houtcome
    cases houtcome with
    | kept => exact ⟨_, rfl⟩
    | lost _ hlimit => exact absurd (hlimit hfree).2 (Nat.not_lt.2 hfits)

/-! ### All edits -/

theorem chunked_foldlM (h : buffer.Chunked id insns)
    (hok : edits.foldlM Edit.perform buffer = .ok buffer') :
    buffer'.Chunked id (edits.foldl Edit.onList insns) := by
  induction edits generalizing buffer insns with
  | nil =>
    cases hok
    exact h
  | cons edit edits ih =>
    rw [List.foldlM_cons] at hok
    cases hedit : edit.perform buffer with
    | error error =>
      rw [hedit] at hok
      cases hok
    | ok next =>
      rw [hedit] at hok
      exact ih (h.perform hedit) hok

theorem exists_foldlM (h : buffer.Chunked id insns) (hfree : ∀ edit ∈ edits, edit.Unrefused id)
    (hfits : insns.length + pushes edits ≤ maxRecords) :
    ∃ buffer', edits.foldlM Edit.perform buffer = .ok buffer' := by
  induction edits generalizing buffer insns with
  | nil => exact ⟨buffer, rfl⟩
  | cons edit edits ih =>
    obtain ⟨hfirst, hrest⟩ := List.forall_mem_cons.1 hfree
    have hlength := length_onList insns edit
    rw [pushes, List.countP_cons] at hfits
    obtain ⟨next, hedit⟩ := h.exists_perform hfirst (by omega)
    rw [List.foldlM_cons, hedit]
    exact ih (h.perform hedit) hrest (by rw [pushes]; omega)

/-- A buffer, as others see it and as it is inside, after edits that make one list of it. -/
structure Represents (edits : List Edit) (buffer : Buffer) : Prop where
  records : buffer.region ++ buffer.staging = plainRun edits
  last : buffer.last = (plainRun edits).getLast?
  setLast : ∀ insn, (buffer.setLast insn).region ++ (buffer.setLast insn).staging =
    (plainRun edits).modifyLast fun _ => insn
  bare : buffer.last = none ↔ pushes edits = 0
  staged : buffer.staging.length < chunkSize
  whole : chunkSize ∣ buffer.region.length
  granted : buffer.grant.size.toNat = 200 * buffer.region.length
  length : buffer.length = pushes edits

theorem toList_setLast_eq (buffer : Buffer) (insn : Insn) :
    (buffer.setLast insn).toList = buffer.toList.modifyLast fun _ => insn := by
  rcases List.eq_nil_or_concat buffer.toList with hnil | ⟨init, last, hconcat⟩
  · obtain ⟨hregion, hstaging⟩ := List.append_eq_nil_iff.1 hnil
    rw [hnil, setLast, hstaging, hregion]
    exact hnil
  · have hne : buffer.toList ≠ [] := by simp [hconcat]
    rw [toList_setLast hne, hconcat, List.concat_eq_append, List.dropLast_concat,
      List.modifyLast_concat]

theorem Chunked.represents (h : buffer.Chunked id (plainRun edits)) :
    buffer.Represents edits := by
  have hlength : buffer.toList.length = pushes edits := h.list ▸ length_plainRun edits
  refine ⟨h.list, h.list ▸ buffer.last_eq, ?_, ?_, h.staged, h.whole, h.paid.toNat_size, ?_⟩
  · intro insn
    rw [← h.list]
    exact buffer.toList_setLast_eq insn
  · rw [last_eq, List.getLast?_eq_none_iff, ← List.length_eq_zero_iff, hlength]
  · rw [← hlength]
    exact List.length_append.symm

/-- Edits of a new buffer succeed where nothing is refused and the records fit a region. Where they
succeed, the buffer represents what they make of a plain list. Finishing it then hands over this
list and a grant for all of it, or gives back everything. -/
theorem run_represents (id : ProviderId) (edits : List Edit) :
    ((∀ edit ∈ edits, edit.Unrefused id) → pushes edits ≤ maxRecords →
      ∃ buffer, run id edits = .ok buffer) ∧
    ∀ buffer, run id edits = .ok buffer → Represents edits buffer ∧ ∀ host,
      (∃ grant host', buffer.finish host = (.ok { insns := plainRun edits, grant }, host') ∧
        grant.size.toNat = 200 * pushes edits ∧
        host.Exchange buffer.grants host' (Insn.allGrants (plainRun edits) ++ [grant])) ∨
      (∃ error host', buffer.finish host = (.error error, host') ∧
        host.Exchange buffer.grants host' [] ∧
        ((host.provider id).NeverRefuses → maxRecords < pushes edits)) := by
  constructor
  · intro hfree hfits
    exact exists_foldlM (chunked_empty id) hfree (by simpa using hfits)
  · intro buffer hrun
    have hchunked : buffer.Chunked id (plainRun edits) := chunked_foldlM (chunked_empty id) hrun
    have hlength := length_plainRun edits
    refine ⟨hchunked.represents, ?_⟩
    intro host
    have hfinished := finish_finished hchunked.paid host
    rw [hchunked.list] at hfinished
    cases hfinish : buffer.finish host with
    | mk result host' =>
      rw [hfinish] at hfinished
      cases hfinished with
      | @all grant _ hpays hkept =>
        exact .inl ⟨grant, host', rfl, hlength ▸ hpays.toNat_size, hkept⟩
      | @nothing error _ hlost hlimit =>
        exact .inr ⟨error, host', rfl, hlost, fun hn => hlength ▸ (hlimit hn).2⟩

/-- A chunk of records, the last of which is widened once it is in the region, and one record more,
which is widened where it is staged. -/
theorem run_represents_chunk_and_one :
    let edits := ((List.range chunkSize).map fun n => Edit.push {} (.blank n.toUInt64 1)) ++
      [.alter fun insn => { insn with size := 4 }, .push {} (.blank 100 1),
        .alter fun insn => { insn with size := 2 }]
    ∃ buffer, run 0 edits = .ok buffer ∧ Represents edits buffer ∧
      buffer.region.getLast?.map Insn.size = some 4 ∧
      buffer.staging.map Insn.size = [2] ∧ buffer.grant.size = 12800 ∧
      ∃ grant host, buffer.finish {} = (.ok { insns := plainRun edits, grant }, host) ∧
        grant.size.toNat = 13000 := by
  intro edits
  have hfree : ∀ edit ∈ edits, edit.Unrefused 0 := by
    intro edit hmem
    rcases List.mem_append.1 hmem with hchunk | hrest
    · obtain ⟨n, -, rfl⟩ := List.mem_map.1 hchunk
      exact Provider.neverRefuses_system
    · simp only [List.mem_cons, List.not_mem_nil, or_false] at hrest
      rcases hrest with rfl | rfl | rfl
      · trivial
      · exact Provider.neverRefuses_system
      · trivial
  have hpushes : pushes edits = 65 := by decide +kernel
  obtain ⟨hreturns, hrepresents⟩ := run_represents 0 edits
  obtain ⟨buffer, hrun⟩ := hreturns hfree (by rw [hpushes]; decide)
  obtain ⟨hlist, hfinish⟩ := hrepresents buffer hrun
  have hstate : ((run 0 edits).toOption.map fun buffer =>
      (buffer.region.getLast?.map Insn.size, buffer.staging.map Insn.size, buffer.grant.size)) =
        some (some 4, [2], 12800) := by
    decide +kernel
  rw [hrun] at hstate
  obtain ⟨hregion, hrest⟩ := Prod.mk.inj (Option.some.inj hstate)
  obtain ⟨hstaging, hgrant⟩ := Prod.mk.inj hrest
  refine ⟨buffer, hrun, hlist, hregion, hstaging, hgrant, ?_⟩
  rcases hfinish {} with ⟨grant, host, hok, hsize, -⟩ | ⟨error, host, -, -, hlimit⟩
  · exact ⟨grant, host, hok, by rw [hsize, hpushes]⟩
  · have hlong := hlimit Provider.neverRefuses_system
    rw [hpushes] at hlong
    exact absurd hlong (by decide)

end Buffer

end Disassembly
