import Disassembly.Backend
import Disassembly.Text.Blank
import Disassembly.Text.Utf8
/-!
Two peculiarities of x86. A prefix is printed as a word of its own in front of the mnemonic, and
both words together are the record's mnemonic. And a `wait` directly before a control form of the
floating-point unit that does not wait is one instruction with it, the waiting form.
-/
namespace Disassembly

namespace X86

def prefixes : List String :=
  ["rep", "repe", "repz", "repne", "repnz", "lock", "xacquire", "xrelease", "bnd", "notrack",
    "data16"]

def waitForms : List (String × String) :=
  [("fnstsw", "fstsw"), ("fnstcw", "fstcw"), ("fnstenv", "fstenv"), ("fnsave", "fsave"),
    ("fninit", "finit"), ("fnclex", "fclex")]

/-- The length in bytes of prefix, spaces and mnemonic, when a line starts with a known prefix
and spaces lead from it to another word. -/
def prefixedLength? (text : List Char) : Option Nat :=
  let first := text.takeWhile (!Text.isBlank ·)
  let rest := text.dropWhile (!Text.isBlank ·)
  let spaces := rest.takeWhile (· == ' ')
  let word := (rest.dropWhile (· == ' ')).takeWhile (!Text.isBlank ·)
  if rest.isEmpty || word.isEmpty || !prefixes.contains (String.ofList first) then none
  else some (Utf8.byteSize first + Utf8.byteSize spaces + Utf8.byteSize word)

def correct (insn : Insn) (text : String) : Corrected :=
  { insn, text, hint := prefixedLength? text.toList }

theorem grants_correct (insn : Insn) (text : String) :
    (correct insn text).insn.grants = insn.grants := rfl

def waitingForm? (mnemonic : String) : Option String :=
  (waitForms.find? fun form => form.1 == mnemonic).map Prod.snd

def precedes (last insn : Insn) : Bool :=
  last.mnemonic.text == "wait" && last.next == insn.address &&
    decide (last.size.toNat + insn.size.toNat ≤ insnBytes)

/-- A `wait` and the record after it as one record. It keeps the address of the `wait` and takes
everything else from the other. -/
def fused (last insn : Insn) (mnemonic : String) : Insn :=
  { id := insn.id
    address := last.address
    size := last.size + insn.size
    bytes := .ofBytes _ (last.raw ++ insn.raw)
    mnemonic := .ofText _ mnemonic
    opStr := .ofText _ insn.opStr.text
    detail := insn.detail }

/-- Folds a form that does not wait into a `wait` directly before it. -/
def combine (insn : Insn) (last : Option Insn) : Offer :=
  match waitingForm? insn.mnemonic.text, last with
  | some mnemonic, some last =>
    if precedes last insn then
      { folded := true
        insn := { insn with detail := none }
        last := some (fused last insn mnemonic)
        dropped := last.grants }
    else .apart insn (some last)
  | _, last => .apart insn last

theorem grants_combine (insn : Insn) (last : Option Insn) :
    (combine insn last).grants.Perm (insn.grants ++ Insn.allGrants last.toList) := by
  unfold combine
  split
  · split
    · simp [Offer.grants, Insn.allGrants, Insn.grants, fused]
    · exact Offer.perm_apart _ _
  · exact Offer.perm_apart _ _

theorem isSome_combine (insn : Insn) (last : Option Insn) :
    (combine insn last).last.isSome = last.isSome := by
  unfold combine
  split
  · split <;> rfl
  · rfl

end X86

def Backend.likeX86 (backend : Backend) : Backend :=
  { backend with
    correct := X86.correct
    combine := X86.combine
    grants_correct := X86.grants_correct
    grants_combine := X86.grants_combine
    isSome_combine := X86.isSome_combine }

end Disassembly
