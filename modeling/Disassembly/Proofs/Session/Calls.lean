import Disassembly.Engine
import Disassembly.Proofs.Session.Confinement
import Disassembly.Proofs.Decode.Dynamic
import Disassembly.Proofs.Decode.Fixed
/-!
# Calls that come to the same

What a session remembers of its last call takes no part in the next one. Sessions that differ in
nothing else come to the same wherever their provider is in the same state; and in any two states
of it, if it never refuses anything.
-/
namespace Disassembly.Session

variable {session session' : Session} {host host' : Host}

def forget (session : Session) : Session := { session with lastError := none }

theorem fill_forget (session : Session) (host : Host) (code : List UInt8) (address : UInt64)
    (slots : List Insn) :
    session.forget.fill host code address slots = session.fill host code address slots := by
  induction slots generalizing host code address with
  | nil => rfl
  | cons slot slots ih =>
    have hnext : session.forget.next host code address = session.next host code address := rfl
    rw [fill, fill, hnext]
    simp only [ih]

theorem sweep_forget (session : Session) (host : Host) (code : List UInt8) (address : UInt64)
    (count : Nat) (buffer : Buffer) (produced : Nat) :
    session.forget.sweep host code address count buffer produced =
      session.sweep host code address count buffer produced := by
  have hnext : ∀ host code address,
      session.forget.next host code address = session.next host code address := fun _ _ _ => rfl
  have happend : ∀ host buffer insn address produced,
      session.forget.append host buffer insn address produced =
        session.append host buffer insn address produced := fun _ _ _ _ _ => rfl
  -- The turns of the one loop are the turns of the other, so that each ends where the other does.
  fun_induction session.sweep host code address count buffer produced with
  | case1 => rw [sweep, dif_pos rfl]
  | case2 _ _ _ _ _ hcode _ _ hrun => rw [sweep, dif_neg hcode, hnext, hrun]
  | case3 _ _ _ _ _ hcode _ hrun => rw [sweep, dif_neg hcode, hnext, hrun]
  | case4 _ _ _ _ _ hcode _ _ hrun _ _ hadd =>
    rw [sweep, dif_neg hcode, hnext, hrun]
    simp only [happend, hadd]
  | case5 _ _ _ _ _ hcode _ _ hrun _ _ _ hadd hreached =>
    rw [sweep, dif_neg hcode, hnext, hrun]
    simp only [happend, hadd, if_pos hreached]
  | case6 _ _ _ _ _ hcode _ _ hrun _ _ _ hadd hreached hsize =>
    rw [sweep, dif_neg hcode, hnext, hrun]
    simp only [happend, hadd, if_neg hreached, dif_pos hsize]
  | case7 _ _ _ _ _ hcode _ _ hrun _ _ _ hadd hreached hsize _ ih =>
    rw [sweep, dif_neg hcode, hnext, hrun]
    simp only [happend, hadd, if_neg hreached, dif_neg hsize]
    exact ih

theorem collect_forget (session : Session) (host : Host) (code : List UInt8) (address : UInt64)
    (count : Nat) :
    session.forget.collect host code address count = session.collect host code address count := by
  rw [collect, collect, sweep_forget]
  rfl

theorem fst_disasmAll (session : Session) (host : Host) (code : List UInt8) (address : UInt64)
    (count : Nat) :
    (session.disasmAll host code address count).1 =
      (session.collect host code address count).1 := by
  unfold disasmAll
  split <;> next hcollect => rw [hcollect]

/-- Two sessions, each on a host of its own, of which every call comes to the same. -/
structure AnswersAs (session : Session) (host : Host) (session' : Session) (host' : Host) :
    Prop where
  disasm : ∀ code address slots,
    (session.disasm host code address slots).1 = (session'.disasm host' code address slots).1
  disasmAll : ∀ code address count,
    (session.disasmAll host code address count).1.map Instructions.insns =
      (session'.disasmAll host' code address count).1.map Instructions.insns
  setDialect : ∀ dialect,
    (session.setDialect dialect host).1 = (session'.setDialect dialect host').1
  query : ∀ insn query,
    (Engine.askSession session insn query).1 = (Engine.askSession session' insn query).1
  regName : ∀ reg, session.regName reg = session'.regName reg
  insnName : ∀ id, session.insnName id = session'.insnName id

namespace AnswersAs

theorem symm (h : session.AnswersAs host session' host') :
    session'.AnswersAs host' session host where
  disasm code address slots := (h.disasm code address slots).symm
  disasmAll code address count := (h.disasmAll code address count).symm
  setDialect dialect := (h.setDialect dialect).symm
  query insn query := (h.query insn query).symm
  regName reg := (h.regName reg).symm
  insnName id := (h.insnName id).symm

theorem trans {session'' : Session} {host'' : Host} (h : session.AnswersAs host session' host')
    (k : session'.AnswersAs host' session'' host'') : session.AnswersAs host session'' host'' where
  disasm code address slots := (h.disasm code address slots).trans (k.disasm code address slots)
  disasmAll code address count :=
    (h.disasmAll code address count).trans (k.disasmAll code address count)
  setDialect dialect := (h.setDialect dialect).trans (k.setDialect dialect)
  query insn query := (h.query insn query).trans (k.query insn query)
  regName reg := (h.regName reg).trans (k.regName reg)
  insnName id := (h.insnName id).trans (k.insnName id)

theorem of_forget (session : Session) (host : Host) :
    session.forget.AnswersAs host session host := by
  refine ⟨?_, ?_, ?_, ?_, fun _ => rfl, fun _ => rfl⟩
  · intro code address slots
    have hfill := fill_forget session host code address slots
    rw [Session.disasm, Session.disasm, hfill]
  · intro code address count
    rw [fst_disasmAll, fst_disasmAll, collect_forget]
  · intro dialect
    by_cases haccepts : session.backend.accepts dialect = true
    · have hforget : session.forget.backend.accepts dialect = true := haccepts
      rw [setDialect_of_accepts haccepts, setDialect_of_accepts hforget]
    · have hforget : ¬ session.forget.backend.accepts dialect = true := haccepts
      rw [setDialect_of_refuses haccepts, setDialect_of_refuses hforget]
  · intro insn query
    cases query <;> rfl

/-- Only decodes ask for memory. -/
theorem of_decodes
    (hdisasm : ∀ code address slots,
      (session.disasm host code address slots).1 = (session.disasm host' code address slots).1)
    (hdisasmAll : ∀ code address count,
      (session.disasmAll host code address count).1.map Instructions.insns =
        (session.disasmAll host' code address count).1.map Instructions.insns) :
    session.AnswersAs host session host' := by
  refine ⟨hdisasm, hdisasmAll, ?_, fun _ _ => rfl, fun _ => rfl, fun _ => rfl⟩
  intro dialect
  by_cases haccepts : session.backend.accepts dialect = true
  · rw [setDialect_of_accepts haccepts, setDialect_of_accepts haccepts]
  · rw [setDialect_of_refuses haccepts, setDialect_of_refuses haccepts]

theorem of_provider (h : host.provider session.provider = host'.provider session.provider) :
    session.AnswersAs host session host' := by
  apply of_decodes
  · intro code address slots
    exact ((session.fill_confined code address slots).own host host' h).1
  · intro code address count
    have hcollect := ((session.collect_draws code address count).own host host' h).1
    rw [fst_disasmAll, fst_disasmAll, hcollect]

theorem of_neverRefuses (hkeep : session.backend.KeepsSize)
    (hfree : (host.provider session.provider).NeverRefuses)
    (hsame : (host'.provider session.provider).reset = (host.provider session.provider).reset) :
    session.AnswersAs host session host' := by
  have hfree' : (host'.provider session.provider).NeverRefuses :=
    fun later hlater => hfree later (hlater.trans hsame)
  have hrecords : ∀ code address,
      session.records (host'.provider session.provider) code address =
        session.records (host.provider session.provider) code address :=
    records_sameHand (.of_reset hsame)
  apply of_decodes
  · intro code address slots
    have hfill := fill_of_neverRefuses hkeep hfree code address slots
    have hfill' := fill_of_neverRefuses hkeep hfree' code address slots
    rw [hrecords] at hfill'
    exact hfill.trans hfill'.symm
  · intro code address count
    rw [insns_of_neverRefuses hkeep hfree, insns_of_neverRefuses hkeep hfree', hrecords]

end AnswersAs

end Disassembly.Session
