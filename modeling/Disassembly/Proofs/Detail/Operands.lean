import Disassembly.Detail
import Mathlib.Algebra.BigOperators.Group.Finset.Basic
import Mathlib.Algebra.GroupWithZero.Nat
/-!
# Operands of a kind, one after the other

Asked for the first, the second and so on, a payload tells the positions of all operands of a
kind from front to back, and no others. Every operand is counted under exactly one kind of its
family. Kinds of other families are refused, whatever else is asked.
-/
namespace Disassembly

/-! ### The kinds of a family -/

namespace OperandKind

theorem nodup_all (arch : Arch) : (all arch).Nodup := by cases arch <;> decide

theorem mem_all (arch : Arch) (kind : OperandKind) : kind ∈ all arch ↔ kind.arch = arch := by
  constructor
  · intro h
    cases arch <;> simp only [all, List.mem_map] at h <;> obtain ⟨_, _, rfl⟩ := h <;> rfl
  · rintro rfl
    cases kind with
    | x86 kind | arm kind | arm64 kind | mips kind | ppc kind => cases kind <;> decide

end OperandKind

namespace Detail

variable {detail : Detail} {kind : OperandKind}

/-! ### Positions -/

theorem pairwise_positions (detail : Detail) (kind : OperandKind) :
    (detail.positions kind).Pairwise (· < ·) := by
  have hsublist : (detail.positions kind).Sublist (detail.operands.kinds.zipIdx.map Prod.snd) :=
    List.filter_sublist.map Prod.snd
  rw [List.zipIdx_map_snd] at hsublist
  exact List.Pairwise.sublist hsublist List.pairwise_lt_range'

theorem mem_positions_iff (detail : Detail) (kind : OperandKind) (i : Nat) :
    i ∈ detail.positions kind ↔ detail.operands.kinds[i]? = some kind := by
  simp only [positions, List.mem_map, List.mem_filter, beq_iff_eq]
  constructor
  · rintro ⟨⟨found, i⟩, ⟨hmem, rfl⟩, rfl⟩
    exact List.mk_mem_zipIdx_iff_getElem?.1 hmem
  · intro h
    exact ⟨(kind, i), ⟨List.mk_mem_zipIdx_iff_getElem?.2 h, rfl⟩, rfl⟩

theorem length_positions (detail : Detail) (kind : OperandKind) :
    (detail.positions kind).length = detail.operands.kinds.count kind := by
  have hfst : detail.operands.kinds = detail.operands.kinds.zipIdx.map Prod.fst :=
    (List.zipIdx_map_fst 0 _).symm
  rw [positions, List.length_map, ← List.countP_eq_length_filter]
  conv_rhs => rw [hfst, List.count, List.countP_map]
  rfl

/-! ### Queries -/

theorem opCount_of_own (h : kind.arch = detail.operands.arch) :
    detail.opCount kind = .ok (detail.positions kind).length := if_pos h

theorem opIndex_of_own (h : kind.arch = detail.operands.arch) (nth : Nat) :
    detail.opIndex kind nth = .ok (if nth = 0 then none else (detail.positions kind)[nth - 1]?) :=
  if_pos h

theorem opCount_of_foreign (h : kind.arch ≠ detail.operands.arch) :
    detail.opCount kind = .error .unsupportedQuery := if_neg h

theorem opIndex_of_foreign (h : kind.arch ≠ detail.operands.arch) (nth : Nat) :
    detail.opIndex kind nth = .error .unsupportedQuery := if_neg h

theorem opIndex_eq_some_iff (h : kind.arch = detail.operands.arch) {nth i : Nat} :
    detail.opIndex kind nth = .ok (some i) ↔
      0 < nth ∧ (detail.positions kind)[nth - 1]? = some i := by
  rw [opIndex_of_own h, Except.ok.injEq]
  by_cases hzero : nth = 0
  · simp [hzero]
  · simp [hzero, Nat.pos_of_ne_zero hzero]

theorem opIndex_eq_none_iff (h : kind.arch = detail.operands.arch) {nth : Nat} :
    detail.opIndex kind nth = .ok none ↔ nth = 0 ∨ (detail.positions kind).length < nth := by
  rw [opIndex_of_own h, Except.ok.injEq]
  by_cases hzero : nth = 0
  · simp [hzero]
  · simp only [hzero, if_false, List.getElem?_eq_none_iff, false_or]
    omega

/-- The numbers from one to `count` lead from front to back to all operands of a kind, and other
numbers to none. -/
structure Enumerates (detail : Detail) (kind : OperandKind) (count : Nat) : Prop where
  counted : detail.opCount kind = .ok count
  present : ∀ nth, 1 ≤ nth → nth ≤ count → ∃ i, detail.opIndex kind nth = .ok (some i)
  increasing : ∀ m n i j, m < n → detail.opIndex kind m = .ok (some i) →
    detail.opIndex kind n = .ok (some j) → i < j
  found_iff : ∀ i,
    (∃ nth, detail.opIndex kind nth = .ok (some i)) ↔ detail.operands.kinds[i]? = some kind
  absent : ∀ nth, nth = 0 ∨ count < nth → detail.opIndex kind nth = .ok none

theorem enumerates_positions (h : kind.arch = detail.operands.arch) :
    detail.Enumerates kind (detail.positions kind).length := by
  constructor
  · exact opCount_of_own h
  · intro nth hpos hle
    have hlt : nth - 1 < (detail.positions kind).length := by omega
    exact ⟨_, (opIndex_eq_some_iff h).2 ⟨hpos, List.getElem?_eq_getElem hlt⟩⟩
  · intro m n i j hmn hi hj
    obtain ⟨hm, hi⟩ := (opIndex_eq_some_iff h).1 hi
    obtain ⟨hn, hj⟩ := (opIndex_eq_some_iff h).1 hj
    obtain ⟨hmlt, rfl⟩ := List.getElem?_eq_some_iff.1 hi
    obtain ⟨hnlt, rfl⟩ := List.getElem?_eq_some_iff.1 hj
    exact List.pairwise_iff_getElem.1 (detail.pairwise_positions kind) _ _ hmlt hnlt (by omega)
  · intro i
    rw [← mem_positions_iff, List.mem_iff_getElem?]
    constructor
    · rintro ⟨nth, hi⟩
      exact ⟨nth - 1, ((opIndex_eq_some_iff h).1 hi).2⟩
    · rintro ⟨n, hi⟩
      exact ⟨n + 1, (opIndex_eq_some_iff h).2 ⟨Nat.succ_pos n, hi⟩⟩
  · intro nth hout
    exact (opIndex_eq_none_iff h).2 hout

/-- Every operand is counted once: under its own kind. -/
theorem sum_length_positions (detail : Detail) :
    ((OperandKind.all detail.operands.arch).map fun kind =>
      (detail.positions kind).length).sum = detail.operands.length := by
  have hmem : ∀ kind ∈ (detail.operands.kinds : Multiset OperandKind),
      kind ∈ (OperandKind.all detail.operands.arch).toFinset := by
    intro kind hkind
    have harch := OperandList.arch_of_mem_kinds (Multiset.mem_coe.1 hkind)
    exact List.mem_toFinset.2 ((OperandKind.mem_all _ _).2 harch)
  have hsum := Multiset.sum_count_eq_card hmem
  rw [List.sum_toFinset _ (OperandKind.nodup_all _)] at hsum
  simpa only [length_positions, OperandList.length, Multiset.coe_count, Multiset.coe_card]
    using hsum

/-- For kinds of the payload's own family the queries enumerate the operands exactly, and the
counts add up to the number of operands; for other kinds they are refused. -/
theorem queries_enumerate (detail : Detail) :
    (∀ kind, kind.arch = detail.operands.arch → ∃ count, detail.Enumerates kind count) ∧
    ((OperandKind.all detail.operands.arch).Nodup ∧
      (∀ kind, kind ∈ OperandKind.all detail.operands.arch ↔ kind.arch = detail.operands.arch) ∧
      ∃ counts : List Nat,
        (OperandKind.all detail.operands.arch).map detail.opCount = counts.map .ok ∧
          counts.sum = detail.operands.length) ∧
    ∀ kind, kind.arch ≠ detail.operands.arch →
      detail.opCount kind = .error .unsupportedQuery ∧
        ∀ nth, detail.opIndex kind nth = .error .unsupportedQuery := by
  refine ⟨fun kind h => ⟨_, enumerates_positions h⟩,
    ⟨OperandKind.nodup_all _, OperandKind.mem_all _, _, ?_, detail.sum_length_positions⟩, ?_⟩
  · rw [List.map_map]
    apply List.map_congr_left
    intro kind hkind
    exact opCount_of_own ((OperandKind.mem_all _ _).1 hkind)
  · intro kind h
    exact ⟨opCount_of_foreign h, opIndex_of_foreign h⟩

/-- A store to memory with a register, an immediate and another register. -/
theorem queries_enumerate_mov :
    let detail := Detail.ofReported [30] [] [2]
      (.x86 [⟨.mem, .mem 20 (-8)⟩, ⟨.reg, .reg 19⟩, ⟨.imm, .imm 4⟩, ⟨.reg, .reg 21⟩])
    detail.Enumerates (.x86 .reg) 2 ∧ detail.opIndex (.x86 .reg) 2 = .ok (some 3) ∧
      detail.opIndex (.arm .reg) 0 = .error .unsupportedQuery := by
  intro detail
  obtain ⟨hown, -, hforeign⟩ := detail.queries_enumerate
  obtain ⟨count, henumerates⟩ := hown (.x86 .reg) rfl
  have hcount : detail.opCount (.x86 .reg) = .ok 2 := by decide
  have htwo : count = 2 := Except.ok.inj (henumerates.counted.symm.trans hcount)
  exact ⟨htwo ▸ henumerates, by decide, (hforeign (.arm .reg) (by decide)).2 0⟩

end Detail

end Disassembly
