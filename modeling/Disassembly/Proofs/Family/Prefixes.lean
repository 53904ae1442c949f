import Disassembly.Proofs.Family.Hooks
import Disassembly.Proofs.Text.Fields
import Disassembly.Proofs.Text.Words
/-!
# Prefixes of a mnemonic

A line that is made of a mnemonic and operands is taken apart again where x86 finds the end of the
mnemonic. It looks for one prefix and the word behind it, so that a mnemonic with one prefix or none
comes back whole. Of two prefixes in a row the second is taken for the word.
-/
namespace Disassembly

namespace Decoded

def seam (operands : String) : List Char := if operands = "" then [] else '\t' :: operands.toList

theorem toList_line (decoded : Decoded) :
    decoded.line.toList = decoded.mnemonic.toList ++ seam decoded.opStr := by
  by_cases hempty : decoded.opStr = ""
  · simp [line, seam, hempty]
  · simp [line, seam, hempty]

theorem endsWord_seam (operands : String) : Text.EndsWord (seam operands) := by
  intro c hc
  by_cases hempty : operands = ""
  · simp [seam, hempty] at hc
  · simp only [seam, hempty, if_false, List.head?_cons, Option.some.injEq] at hc
    subst c
    rfl

theorem dropWhile_seam {operands : String}
    (h : ∀ c ∈ operands.toList.head?, Text.isBlank c = false) :
    (seam operands).dropWhile Text.isBlank = operands.toList := by
  by_cases hempty : operands = ""
  · subst hempty
    rfl
  · rw [seam, if_neg hempty, List.dropWhile_cons_of_pos (by rfl)]
    cases hoperands : operands.toList with
    | nil => rfl
    | cons c rest =>
      have hc : Text.isBlank c = false := h c (by rw [hoperands]; rfl)
      rw [List.dropWhile_cons_of_neg (by simp [hc])]

theorem render_of_writes {provider : Provider} (h : provider.Writes) (decoded : Decoded) :
    decoded.render provider = decoded.line := by
  rw [render, h]
  simp

end Decoded

namespace X86

open Text (IsWord EndsWord isBlank splitRendered)

theorem isWord_of_mem_prefixes {first : String} (h : first ∈ prefixes) : IsWord first.toList := by
  have hall : ∀ first ∈ prefixes, IsWord first.toList := by decide
  exact hall first h

/-- One prefix and the word behind it are the mnemonic, however many spaces are in between. -/
theorem prefixedLength?_of_prefix {first : String} (hfirst : first ∈ prefixes) {word : List Char}
    (hword : IsWord word) {rest : List Char} (hrest : EndsWord rest) (spaces : Nat) :
    prefixedLength? (first.toList ++ (List.replicate (spaces + 1) ' ' ++ (word ++ rest))) =
      some (Utf8.byteSize (first.toList ++ (List.replicate (spaces + 1) ' ' ++ word))) := by
  have hends := Text.endsWord_spaces spaces (word ++ rest)
  have hknown : prefixes.contains (String.ofList first.toList) = true := by
    rw [String.ofList_toList]
    exact List.contains_iff_mem.2 hfirst
  have hnonempty : word.isEmpty = false := by
    rw [List.isEmpty_eq_false_iff]
    exact hword.nonempty
  simp only [prefixedLength?, (isWord_of_mem_prefixes hfirst).takeWhile hends,
    (isWord_of_mem_prefixes hfirst).dropWhile hends, hword.takeWhile_spaces,
    hword.dropWhile_spaces, hword.takeWhile hrest, hknown, hnonempty, Utf8.byteSize_append,
    Nat.add_assoc]
  rfl

/-- A word alone, or with operands behind it, is the mnemonic even where it is a known prefix. -/
theorem prefixedLength?_of_word {word : List Char} (hword : IsWord word) (operands : String) :
    prefixedLength? (word ++ Decoded.seam operands) = none := by
  have hends := Decoded.endsWord_seam operands
  simp only [prefixedLength?, hword.takeWhile hends, hword.dropWhile hends]
  by_cases hempty : operands = ""
  · rw [Decoded.seam, if_pos hempty]
    rfl
  · rw [Decoded.seam, if_neg hempty]
    rfl

def phrase (run : List String) (word : String) : String :=
  run.foldr (fun first rest => first ++ " " ++ rest) word

/-- What the decoder prints: some prefixes and a word, and operands that do not start with a blank,
all without zeros and short enough for their fields. -/
structure Printed (decoded : Decoded) (run : List String) (word : String) : Prop where
  mnemonic : decoded.mnemonic = phrase run word
  run : ∀ first ∈ run, first ∈ prefixes
  word : IsWord word.toList
  operands : ∀ c ∈ decoded.opStr.toList.head?, isBlank c = false
  mnemonic_fits : Utf8.byteSize decoded.mnemonic.toList < mnemonicLen
  operands_fit : Utf8.byteSize decoded.opStr.toList < opStrLen
  mnemonic_zeros : '\x00' ∉ decoded.mnemonic.toList
  operands_zeros : '\x00' ∉ decoded.opStr.toList

theorem toList_phrase_cons (first : String) (run : List String) (word : String) :
    (phrase (first :: run) word).toList =
      first.toList ++ (List.replicate (0 + 1) ' ' ++ (phrase run word).toList) := by
  simp [phrase]

theorem prefixedLength?_phrase {first second : String} (hfirst : first ∈ prefixes)
    (hsecond : IsWord second.toList) {rest : List Char} (hrest : EndsWord rest) :
    prefixedLength? ((phrase [first] second).toList ++ rest) =
      some (Utf8.byteSize (phrase [first] second).toList) := by
  rw [toList_phrase_cons, List.append_assoc, List.append_assoc]
  exact prefixedLength?_of_prefix hfirst hsecond hrest 0

theorem exists_isWord_phrase {run : List String} (hrun : ∀ first ∈ run, first ∈ prefixes)
    {word : String} (hword : IsWord word.toList) :
    ∃ first rest, IsWord first ∧ (phrase run word).toList = first ++ rest := by
  cases run with
  | nil => exact ⟨word.toList, [], hword, (List.append_nil _).symm⟩
  | cons first run =>
    have hfirst := isWord_of_mem_prefixes (hrun first List.mem_cons_self)
    exact ⟨first.toList, _, hfirst, toList_phrase_cons first run word⟩

def textsOf (line : List Char) : List Char × List Char :=
  splitRendered line (prefixedLength? line)

variable {decoded : Decoded} {run : List String} {word : String}

theorem textsOf_of_short (h : Printed decoded run word) (hrun : run.length ≤ 1) :
    textsOf decoded.line.toList = (decoded.mnemonic.toList, decoded.opStr.toList) := by
  have hends := Decoded.endsWord_seam decoded.opStr
  rw [textsOf, Decoded.toList_line, ← Decoded.dropWhile_seam h.operands, h.mnemonic]
  match run, hrun with
  | [], _ =>
    have hphrase : (phrase [] word).toList = word.toList := rfl
    rw [hphrase, prefixedLength?_of_word h.word, h.word.splitRendered hends]
  | [first], _ =>
    have hfirst := h.run first List.mem_cons_self
    rw [prefixedLength?_phrase hfirst h.word hends, Text.splitRendered_append]

def remainder (decoded : Decoded) (run : List String) (word : String) : String :=
  ({ decoded with mnemonic := phrase run word } : Decoded).line

theorem toList_remainder (decoded : Decoded) (run : List String) (word : String) :
    (remainder decoded run word).toList =
      (phrase run word).toList ++ Decoded.seam decoded.opStr := Decoded.toList_line _

section TwoPrefixes

variable {first second : String} (h : Printed decoded (first :: second :: run) word)

include h

theorem toList_mnemonic_of_printed : decoded.mnemonic.toList = (phrase [first] second).toList ++
    (List.replicate (0 + 1) ' ' ++ (phrase run word).toList) := by
  rw [h.mnemonic, toList_phrase_cons, toList_phrase_cons, toList_phrase_cons first []]
  simp only [List.append_assoc]
  rfl

theorem textsOf_of_long :
    textsOf decoded.line.toList =
      ((phrase [first] second).toList, (remainder decoded run word).toList) := by
  obtain ⟨hfirst, hsecond, hrun⟩ :
      first ∈ prefixes ∧ second ∈ prefixes ∧ ∀ other ∈ run, other ∈ prefixes := by
    simpa using h.run
  have hline : decoded.line.toList = (phrase [first] second).toList ++
      (List.replicate (0 + 1) ' ' ++ (remainder decoded run word).toList) := by
    rw [Decoded.toList_line, toList_mnemonic_of_printed h, toList_remainder]
    simp only [List.append_assoc]
  have hends := Text.endsWord_spaces 0 (remainder decoded run word).toList
  have hblanks : (List.replicate (0 + 1) ' ' ++ (remainder decoded run word).toList).dropWhile
      isBlank = (remainder decoded run word).toList := by
    obtain ⟨start, rest, hstart, hphrase⟩ := exists_isWord_phrase hrun h.word
    rw [toList_remainder, hphrase, List.append_assoc,
      List.dropWhile_append_of_pos (by simp [isBlank]), hstart.dropWhile_isBlank]
  rw [textsOf, hline, prefixedLength?_phrase hfirst (isWord_of_mem_prefixes hsecond) hends,
    Text.splitRendered_append, hblanks]

theorem no_zero_remainder : '\x00' ∉ (remainder decoded run word).toList := by
  have hmnemonic := h.mnemonic_zeros
  have hoperands := h.operands_zeros
  rw [toList_mnemonic_of_printed h] at hmnemonic
  rw [toList_remainder, Decoded.seam]
  by_cases hempty : decoded.opStr = "" <;> simp_all

end TwoPrefixes

end X86

namespace Insn

variable (plain : Backend) (detail : Bool) (decoded : Decoded) (text : String)
  (code : List UInt8) (payload : Option (Payload Detail))

theorem mnemonic_ofDecoded_likeX86 :
    (ofDecoded plain.likeX86 detail decoded text code payload).mnemonic =
      .ofText _ (String.ofList (X86.textsOf text.toList).1) := rfl

theorem opStr_ofDecoded_likeX86 :
    (ofDecoded plain.likeX86 detail decoded text code payload).opStr =
      .ofText _ (String.ofList (X86.textsOf text.toList).2) := rfl

end Insn

namespace X86

variable {decoded : Decoded} {run : List String} {word : String}

/-- Rendered, corrected and split, an instruction gives back the mnemonic and the operands that the
decoder printed, as long as there is one prefix at most. Of a longer run only the first two words
stay in the mnemonic, and all others are put in front of the operands. -/
theorem texts_of_printed (h : Printed decoded run word) {provider : Provider}
    (hwrites : provider.Writes) (plain : Backend) (detail : Bool) (code : List UInt8)
    (payload : Option (Payload Detail)) :
    let insn := Insn.ofDecoded plain.likeX86 detail decoded (decoded.render provider) code payload
    (run.length ≤ 1 →
      insn.mnemonic.text = decoded.mnemonic ∧ insn.opStr.text = decoded.opStr) ∧
    ∀ first second rest, run = first :: second :: rest →
      insn.mnemonic.text = first ++ " " ++ second ∧
      insn.opStr.text = String.ofList
        (Utf8.takeBytes (opStrLen - 1) (remainder decoded rest word).toList) ∧
      insn.mnemonic.text ≠ decoded.mnemonic := by
  intro insn
  have hmnemonic : insn.mnemonic =
      .ofText _ (String.ofList (textsOf decoded.line.toList).1) := by
    rw [Insn.mnemonic_ofDecoded_likeX86, Decoded.render_of_writes hwrites]
  have hoperands : insn.opStr =
      .ofText _ (String.ofList (textsOf decoded.line.toList).2) := by
    rw [Insn.opStr_ofDecoded_likeX86, Decoded.render_of_writes hwrites]
  constructor
  · intro hshort
    rw [hmnemonic, hoperands, textsOf_of_short h hshort, String.ofList_toList,
      String.ofList_toList]
    exact ⟨Field.text_ofText_of_fits h.mnemonic_zeros (Nat.le_sub_one_of_lt h.mnemonic_fits),
      Field.text_ofText_of_fits h.operands_zeros (Nat.le_sub_one_of_lt h.operands_fit)⟩
  · rintro first second rest rfl
    -- The first two words are a part of the whole mnemonic, so that they fit where it does.
    have hwhole := toList_mnemonic_of_printed h
    have hsize := congrArg Utf8.byteSize hwhole
    have hfits := h.mnemonic_fits
    have hzeros := h.mnemonic_zeros
    rw [hwhole] at hzeros
    rw [Utf8.byteSize_append] at hsize
    have htext : insn.mnemonic.text = phrase [first] second := by
      rw [hmnemonic, textsOf_of_long h, String.ofList_toList]
      apply Field.text_ofText_of_fits
      · exact fun hmem => hzeros (List.mem_append_left _ hmem)
      · omega
    refine ⟨htext, ?_, ?_⟩
    · rw [hoperands, textsOf_of_long h, String.ofList_toList,
        Field.text_ofText_of_no_zero (no_zero_remainder h)]
    · rw [htext]
      intro heq
      rw [← heq] at hwhole
      simp at hwhole

/-- One prefix, and operands that have blanks in them. -/
theorem texts_of_printed_rep_stosd :
    let decoded : Decoded :=
      { address := 0, size := 2, opcode := 0, mnemonic := "rep stosd"
        opStr := "dword ptr es:[edi], eax" }
    let insn := Insn.ofDecoded (Arch.x86.backend .silent) false decoded (decoded.render .system)
      [0xf3, 0xab] none
    Printed decoded ["rep"] "stosd" ∧ Provider.system.Writes ∧
      insn.mnemonic.text = "rep stosd" ∧ insn.opStr.text = "dword ptr es:[edi], eax" := by
  intro decoded insn
  have hprinted : Printed decoded ["rep"] "stosd" :=
    { mnemonic := by decide
      run := by decide
      word := by decide
      operands := by
        intro c hc
        have hfirst : decoded.opStr.toList.head? = some 'd' := by decide
        rw [hfirst] at hc
        cases hc
        rfl
      mnemonic_fits := by decide
      operands_fit := by decide
      mnemonic_zeros := by decide
      operands_zeros := by decide }
  have hwrites : Provider.system.Writes := fun _ _ => rfl
  obtain ⟨plain, hplain⟩ := Arch.exists_likeX86 .silent
  refine ⟨hprinted, hwrites, ?_⟩
  have htexts := (texts_of_printed hprinted hwrites plain false [0xf3, 0xab] none).1 (by decide)
  rw [← hplain] at htexts
  exact htexts

/-- With two prefixes the word of the instruction is found among the operands. -/
theorem word_in_operands_of_xacquire_lock :
    let decoded : Decoded :=
      { address := 0, size := 5, opcode := 0, mnemonic := "xacquire lock add"
        opStr := "dword ptr [eax], 1" }
    let insn := Insn.ofDecoded (Arch.x86.backend .silent) false decoded (decoded.render .system)
      [0xf2, 0xf0, 0x83, 0x00, 0x01] none
    insn.mnemonic.text = "xacquire lock" ∧ insn.opStr.text = "add\tdword ptr [eax], 1" := by
  decide +kernel

end X86

end Disassembly
