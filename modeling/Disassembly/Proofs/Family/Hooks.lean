import Disassembly.Proofs.Family.Combiners
/-!
# How the families correct and combine

Whatever a family decodes, it corrects and combines in one of three ways. None of them changes a
record when it corrects the line, and combining leaves two records apart or puts one that is made
of both in the place of the first.
-/
namespace Disassembly

theorem Insn.withLast_getLast? (insns : List Insn) : withLast insns insns.getLast? = insns := by
  rcases List.eq_nil_or_concat insns with rfl | ⟨init, last, rfl⟩
  · rfl
  · simp [withLast]

namespace Backend

/-- A collaborator that corrects and combines as a family does, or the toy, whatever it decodes. -/
inductive Standard (backend : Backend) : Prop where
  | plain : backend.correct = (fun insn text => { insn, text }) → backend.combine = .apart →
      Standard backend
  | x86 : backend.correct = X86.correct → backend.combine = X86.combine → Standard backend
  | toy : backend.correct = (fun insn text => { insn, text }) → backend.combine = Toy.combine →
      Standard backend

def FusesBy (backend : Backend) (fused : Insn → Insn → Insn → Prop) : Prop :=
  ∀ insn last, backend.combine insn last = .apart insn last ∨
    ∃ old new, last = some old ∧ (backend.combine insn last).folded = true ∧
      (backend.combine insn last).last = some new ∧ fused old insn new

theorem FusesBy.leavesUnfolded {backend : Backend} {fused : Insn → Insn → Insn → Prop}
    (h : backend.FusesBy fused) : backend.LeavesUnfolded := by
  intro insn last hunfolded
  rcases h insn last with hapart | ⟨-, -, -, hfolded, -⟩
  · exact hapart
  · rw [hfolded] at hunfolded
    cases hunfolded

inductive Offered (backend : Backend) (fused : Insn → Insn → Insn → Prop) (insns : List Insn)
    (insn : Insn) : List Insn → Prop where
  | apart : backend.combine insn insns.getLast? = .apart insn insns.getLast? →
      Offered backend fused insns insn (insns ++ [insn])
  | fused {init : List Insn} {old new : Insn} : insns = init ++ [old] → fused old insn new →
      Offered backend fused insns insn (init ++ [new])

variable {backend : Backend} {fused : Insn → Insn → Insn → Prop}

theorem offerTo_offered (h : backend.FusesBy fused) (insns : List Insn) (insn : Insn) :
    Offered backend fused insns insn (backend.offerTo insns insn) := by
  rcases h insn insns.getLast? with hapart | ⟨old, new, hlast, hfolded, hnew, hfused⟩
  · have hoffer : backend.offerTo insns insn = insns ++ [insn] := by
      simp [offerTo, hapart, Offer.apart, Insn.withLast_getLast?]
    rw [hoffer]
    exact .apart hapart
  · obtain ⟨init, rfl⟩ := List.getLast?_eq_some_iff.1 hlast
    have hoffer : backend.offerTo (init ++ [old]) insn = init ++ [new] := by
      simp only [offerTo, hfolded, hnew, if_true, Insn.withLast_concat]
    rw [hoffer]
    exact .fused rfl hfused

/-- What every offer keeps, of the records combined and those still to come, holds wherever
combining stops. -/
theorem offerUpTo_keeps {motive : List Insn → List Insn → Prop}
    (hoffer : ∀ insns insn rest, motive insns (insn :: rest) →
      motive (backend.offerTo insns insn) rest)
    (count : Nat) {insns rest : List Insn} (h : motive insns rest) :
    ∃ left, motive (backend.offerUpTo count insns rest) left := by
  induction rest generalizing insns with
  | nil => exact ⟨[], h⟩
  | cons insn rest ih =>
    have hnext := hoffer insns insn rest h
    rw [offerUpTo]
    split
    · exact ⟨rest, hnext⟩
    · exact ih hnext

namespace Standard

theorem exists_hint (h : backend.Standard) : ∃ hint : String → Option Nat,
    ∀ insn text, backend.correct insn text = { insn, text, hint := hint text } := by
  cases h with
  | plain hcorrect _ | toy hcorrect _ =>
    refine ⟨fun _ => none, ?_⟩
    rw [hcorrect]
    exact fun _ _ => rfl
  | x86 hcorrect _ =>
    refine ⟨fun text => X86.prefixedLength? text.toList, ?_⟩
    rw [hcorrect]
    exact fun _ _ => rfl

theorem insn_correct (h : backend.Standard) (insn : Insn) (text : String) :
    (backend.correct insn text).insn = insn := by
  obtain ⟨hint, hcorrect⟩ := h.exists_hint
  rw [hcorrect]

theorem keepsSize (h : backend.Standard) : backend.KeepsSize := by
  intro insn text
  rw [h.insn_correct]

end Standard

theorem standard_likeX86 (backend : Backend) : backend.likeX86.Standard := .x86 rfl rfl

end Backend

theorem Toy.standard_backend : backend.Standard := .toy rfl rfl

theorem Arch.standard_backend (arch : Arch) (decoder : Decoder) :
    (arch.backend decoder).Standard := by
  unfold backend
  dsimp only
  split
  · exact .x86 rfl rfl
  · exact .plain rfl rfl

theorem Arch.exists_likeX86 (decoder : Decoder) :
    ∃ plain : Backend, Arch.x86.backend decoder = plain.likeX86 := by
  unfold backend
  exact ⟨_, if_pos rfl⟩

def X86.Fused (old insn new : Insn) : Prop :=
  ∃ mnemonic, waitingForm? insn.mnemonic.text = some mnemonic ∧ precedes old insn = true ∧
    new = fused old insn mnemonic

def Toy.Fused (old insn new : Insn) : Prop :=
  old.size.toNat + insn.size.toNat ≤ insnBytes ∧ new = fused old insn

namespace Backend

variable {backend : Backend}

theorem fusesBy_x86 (h : backend.combine = X86.combine) : backend.FusesBy X86.Fused := by
  intro insn last
  rw [h]
  unfold X86.combine
  split
  · next mnemonic old hform =>
    split
    · next hprecedes =>
      exact .inr ⟨old, _, rfl, rfl, rfl, mnemonic, hform, hprecedes, rfl⟩
    · exact .inl rfl
  · exact .inl rfl

theorem fusesBy_toy (h : backend.combine = Toy.combine) : backend.FusesBy Toy.Fused := by
  intro insn last
  rw [h]
  unfold Toy.combine
  split
  · exact .inl rfl
  · next old =>
    split
    · next hprecedes =>
      simp only [Bool.and_eq_true, decide_eq_true_eq] at hprecedes
      exact .inr ⟨old, _, rfl, rfl, rfl, hprecedes.2, rfl⟩
    · exact .inl rfl

theorem fusesBy_apart (h : backend.combine = .apart) (fused : Insn → Insn → Insn → Prop) :
    backend.FusesBy fused := by
  intro insn last
  rw [h]
  exact .inl rfl

theorem Standard.leavesUnfolded (h : backend.Standard) : backend.LeavesUnfolded := by
  cases h with
  | plain _ hcombine => exact (fusesBy_apart hcombine fun _ _ _ => True).leavesUnfolded
  | x86 _ hcombine => exact (fusesBy_x86 hcombine).leavesUnfolded
  | toy _ hcombine => exact (fusesBy_toy hcombine).leavesUnfolded

end Backend

theorem RuleFamily.leavesUnfolded_backend (family : RuleFamily) :
    family.backend.LeavesUnfolded := by
  unfold backend
  dsimp only
  split
  · exact (Backend.standard_likeX86 _).leavesUnfolded
  · next corrections fusions _ =>
    intro insn last hunfolded
    rcases fuseBy_cases fusions insn last with hapart | ⟨_, _, _, _, _, _, hfused⟩
    · exact hapart
    · dsimp only at hunfolded
      rw [hfused] at hunfolded
      cases hunfolded

end Disassembly
