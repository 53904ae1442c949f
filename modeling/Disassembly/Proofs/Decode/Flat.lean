import Disassembly.Backend
/-!
# Combining in one flat list

What combining comes to where the records are kept in one plain list: each record is offered to
the last one of the list, and appended unless it was folded in. The blocks of the list and of the
record change hands, but none is lost.
-/
namespace Disassembly

theorem Insn.allGrants_append (a b : List Insn) :
    Insn.allGrants (a ++ b) = Insn.allGrants a ++ Insn.allGrants b := List.flatMap_append

theorem Insn.allGrants_singleton (insn : Insn) : Insn.allGrants [insn] = insn.grants :=
  List.append_nil _

theorem Insn.allGrants_between_append (before insns after : List Insn) (rest : List Grant) :
    (allGrants (before ++ insns ++ after) ++ rest).Perm
      (allGrants insns ++ (allGrants before ++ (allGrants after ++ rest))) := by
  rw [allGrants_append, allGrants_append, List.append_assoc, List.append_assoc]
  exact List.perm_append_comm_assoc _ _ _

theorem Insn.allGrants_between (before insns after : List Insn) :
    (allGrants (before ++ insns ++ after)).Perm
      (allGrants insns ++ (allGrants before ++ allGrants after)) := by
  simpa using allGrants_between_append before insns after []

theorem Insn.forall_between {holds : Insn → Prop} {before old put after : List Insn}
    (h : ∀ insn ∈ before ++ old ++ after, holds insn) (hput : ∀ insn ∈ put, holds insn) :
    ∀ insn ∈ before ++ put ++ after, holds insn := by
  obtain ⟨hfront, hafter⟩ := List.forall_mem_append.1 h
  have hbefore := (List.forall_mem_append.1 hfront).1
  exact List.forall_mem_append.2 ⟨List.forall_mem_append.2 ⟨hbefore, hput⟩, hafter⟩

def Insn.withLast (insns : List Insn) : Option Insn → List Insn
  | some last => insns.dropLast ++ [last]
  | none => insns

theorem Insn.withLast_concat (insns : List Insn) (old last : Insn) :
    Insn.withLast (insns ++ [old]) (some last) = insns ++ [last] := by
  simp [withLast]

namespace Backend

/-- A list of records to whose last one another record was offered. -/
def offerTo (backend : Backend) (insns : List Insn) (insn : Insn) : List Insn :=
  let offer := backend.combine insn insns.getLast?
  let rest := Insn.withLast insns offer.last
  if offer.folded then rest else rest ++ [offer.insn]

/-- Offers one record after the other, and stops as soon as there are `count` of them. A count of
zero is no limit. -/
def offerUpTo (backend : Backend) (count : Nat) (insns : List Insn) : List Insn → List Insn
  | [] => insns
  | insn :: rest =>
    let insns := backend.offerTo insns insn
    if 0 < count ∧ insns.length = count then insns else backend.offerUpTo count insns rest

variable {backend : Backend} {insns : List Insn} {insn : Insn}

theorem offerTo_nil (backend : Backend) (insn : Insn) :
    (backend.combine insn none).last = none ∧
      backend.offerTo [] insn =
        if (backend.combine insn none).folded then [] else [(backend.combine insn none).insn] := by
  have hnone : (backend.combine insn none).last = none := by
    simpa using backend.isSome_combine insn none
  refine ⟨hnone, ?_⟩
  simp [offerTo, hnone, Insn.withLast]

theorem offerTo_concat (backend : Backend) (insns : List Insn) (last insn : Insn) :
    ∃ kept, (backend.combine insn (some last)).last = some kept ∧
      backend.offerTo (insns ++ [last]) insn =
        if (backend.combine insn (some last)).folded then insns ++ [kept]
        else insns ++ [kept] ++ [(backend.combine insn (some last)).insn] := by
  have hsome := backend.isSome_combine insn (some last)
  obtain ⟨kept, hkept⟩ := Option.isSome_iff_exists.1 hsome
  exact ⟨kept, hkept, by simp [offerTo, hkept, Insn.withLast]⟩

theorem length_withLast_combine (backend : Backend) (insns : List Insn) (insn : Insn) :
    (Insn.withLast insns (backend.combine insn insns.getLast?).last).length = insns.length := by
  rcases List.eq_nil_or_concat insns with rfl | ⟨init, last, rfl⟩
  · simp [(offerTo_nil backend insn).1, Insn.withLast]
  · obtain ⟨kept, hkept, -⟩ := offerTo_concat backend init last insn
    simp [hkept, Insn.withLast]

theorem length_offerTo (backend : Backend) (insns : List Insn) (insn : Insn) :
    (backend.offerTo insns insn).length = insns.length +
      if (backend.combine insn insns.getLast?).folded then 0 else 1 := by
  have hlength := length_withLast_combine backend insns insn
  unfold offerTo
  dsimp only
  split <;> simp [hlength]

theorem length_le_offerUpTo (backend : Backend) (count : Nat) (insns rest : List Insn) :
    insns.length ≤ (backend.offerUpTo count insns rest).length := by
  induction rest generalizing insns with
  | nil => exact Nat.le_refl _
  | cons insn rest ih =>
    have hstep := length_offerTo backend insns insn
    unfold offerUpTo
    dsimp only
    split
    · omega
    · exact Nat.le_trans (by omega) (ih _)

theorem length_offerUpTo_le (backend : Backend) (count : Nat) (insns rest : List Insn) :
    (backend.offerUpTo count insns rest).length ≤ insns.length + rest.length := by
  induction rest generalizing insns with
  | nil => exact Nat.le_refl _
  | cons insn rest ih =>
    have hstep := length_offerTo backend insns insn
    have hle : (backend.offerTo insns insn).length ≤ insns.length + 1 := by
      rw [hstep]
      split <;> omega
    rw [offerUpTo, List.length_cons]
    split
    · omega
    · exact Nat.le_trans (ih _) (by omega)

theorem offerUpTo_zero (backend : Backend) (insns rest : List Insn) :
    backend.offerUpTo 0 insns rest = rest.foldl backend.offerTo insns := by
  induction rest generalizing insns with
  | nil => rfl
  | cons insn rest ih => simpa [offerUpTo] using ih _

def NeverFolds (backend : Backend) : Prop :=
  ∀ insn last, (backend.combine insn last).folded = false

/-- A record that is not folded, and the one before it, are left as they were. -/
def LeavesUnfolded (backend : Backend) : Prop :=
  ∀ insn last, (backend.combine insn last).folded = false →
    backend.combine insn last = .apart insn last

/-- Where nothing is folded there are as many records as before, whatever combining made of them. -/
theorem length_offerUpTo (hnever : backend.NeverFolds) (count : Nat) (insns rest : List Insn)
    (hcount : count = 0 ∨ insns.length < count) :
    (backend.offerUpTo count insns rest).length =
      insns.length + (if count = 0 then rest else rest.take (count - insns.length)).length := by
  induction rest generalizing insns with
  | nil => simp [offerUpTo]
  | cons insn rest ih =>
    have hstep : (backend.offerTo insns insn).length = insns.length + 1 := by
      rw [length_offerTo, hnever]
      rfl
    rw [offerUpTo, hstep]
    rcases hcount with rfl | hlt
    · rw [if_neg (by omega), ih _ (.inl rfl), hstep]
      simp only [if_true, List.length_cons]
      omega
    · have hpos : count ≠ 0 := by omega
      have hih := ih (backend.offerTo insns insn)
      rw [hstep, if_neg hpos, List.length_take] at hih
      rw [if_neg hpos, List.length_take, List.length_cons]
      by_cases hfull : insns.length + 1 = count
      · rw [if_pos ⟨by omega, hfull⟩, hstep]
        omega
      · rw [if_neg (by omega), hih (.inr (by omega))]
        omega

theorem offerUpTo_apart (hnever : backend.NeverFolds) (hleaves : backend.LeavesUnfolded)
    (count : Nat) (insns rest : List Insn) (hcount : count = 0 ∨ insns.length < count) :
    backend.offerUpTo count insns rest =
      insns ++ if count = 0 then rest else rest.take (count - insns.length) := by
  induction rest generalizing insns with
  | nil => simp [offerUpTo]
  | cons insn rest ih =>
    have hoffer : backend.offerTo insns insn = insns ++ [insn] := by
      unfold offerTo
      rw [hleaves _ _ (hnever _ _)]
      rcases List.eq_nil_or_concat insns with rfl | ⟨init, last, rfl⟩
      · rfl
      · simp [Offer.apart, Insn.withLast]
    rw [offerUpTo, hoffer, List.length_append, List.length_singleton]
    rcases hcount with rfl | hlt
    · rw [if_neg (by omega), ih _ (.inl rfl)]
      simp
    · have hpos : count ≠ 0 := by omega
      by_cases hfull : insns.length + 1 = count
      · rw [if_pos ⟨by omega, hfull⟩, if_neg hpos, ← hfull, Nat.add_sub_cancel_left]
        simp
      · rw [if_neg (by omega), ih _ (.inr (by simp; omega)), if_neg hpos, if_neg hpos]
        have hsplit : count - insns.length = count - (insns.length + 1) + 1 := by omega
        simp [hsplit]

theorem grants_withLast_combine (backend : Backend) (insns : List Insn) (insn : Insn) :
    (insn.grants ++ Insn.allGrants insns).Perm
      ((backend.combine insn insns.getLast?).dropped ++
        ((backend.combine insn insns.getLast?).insn.grants ++
          Insn.allGrants (Insn.withLast insns (backend.combine insn insns.getLast?).last))) := by
  have hperm := backend.grants_combine insn insns.getLast?
  rcases List.eq_nil_or_concat insns with rfl | ⟨init, last, hconcat⟩
  · have hnone := (offerTo_nil backend insn).1
    simp only [List.getLast?_nil, Offer.grants, hnone, Option.toList_none] at hperm ⊢
    exact hperm.symm.trans List.perm_append_comm
  · rw [List.concat_eq_append] at hconcat
    subst hconcat
    obtain ⟨kept, hkept, -⟩ := offerTo_concat backend init last insn
    simp only [List.getLast?_concat, Offer.grants, hkept, Option.toList_some,
      Insn.allGrants_singleton] at hperm
    simp only [List.getLast?_concat, hkept, Insn.withLast_concat, Insn.allGrants_append,
      Insn.allGrants_singleton]
    generalize (backend.combine insn (some last)).insn.grants = moved at hperm ⊢
    generalize (backend.combine insn (some last)).dropped = dropped at hperm ⊢
    generalize Insn.allGrants init = before
    calc insn.grants ++ (before ++ last.grants)
      _ |>.Perm (before ++ (insn.grants ++ last.grants)) := List.perm_append_comm_assoc _ _ _
      _ |>.Perm (before ++ (moved ++ kept.grants ++ dropped)) := hperm.symm.append_left before
      _ |>.Perm (dropped ++ (before ++ (moved ++ kept.grants))) := by
        rw [← List.append_assoc]
        exact List.perm_append_comm
      _ |>.Perm (dropped ++ (moved ++ (before ++ kept.grants))) :=
        (List.perm_append_comm_assoc _ _ _).append_left dropped

end Backend

end Disassembly
