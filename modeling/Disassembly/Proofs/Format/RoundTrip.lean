import Disassembly.Format
import Disassembly.Format.DocumentReader
import Disassembly.Proofs.Json.Brackets
import Disassembly.Proofs.Json.Lines
/-!
# Shown records, written and read back

In either layout a summary, a record and a whole document are found by their readers where they
stand, so that nothing of them is lost. A record on one line has no line break in it, whatever its
texts, since every break in a text is escaped.
-/
namespace Disassembly

open Json

/-! ### Summaries -/

theorem reads_id (id : UInt32) : Reads DetailSummary.readId (Nat.toDigits 10 id.toNat) id :=
  reads_word id.toNat_lt (by decide) (by rw [Nat.toUInt32_eq, UInt32.ofNat_toNat])

namespace DetailSummary

def Draft.ofSummary (summary : DetailSummary) : Draft where
  regsRead := some summary.regsRead
  regsWrite := some summary.regsWrite
  groups := some summary.groups
  operands := some summary.operands

theorem reads_ids (layout : Layout) (ids : List UInt32) :
    Reads (readArray readId) (write layout (.array (ids.map fun id => .number id.toNat))) ids :=
  reads_array layout fun id _ => reads_id id

theorem reads_count (count : UInt64) : Reads readCount (Nat.toDigits 10 count.toNat) count :=
  reads_word count.toNat_lt (by decide) (by rw [Nat.toUInt64_eq, UInt64.ofNat_toNat])

theorem reads_members (layout : Layout) (summary : DetailSummary) :
    Reads form.read (write layout summary.toJson) (Draft.ofSummary summary) :=
  -- each member gives a field that has no value yet
  reads_object <|
    .member (takes_once (fun _ => rfl) rfl (reads_ids _ summary.regsRead) _) <|
    .member (takes_once (fun _ => rfl) rfl (reads_ids _ summary.regsWrite) _) <|
    .member (takes_once (fun _ => rfl) rfl (reads_ids _ summary.groups) _) <|
    .member (takes_once (fun _ => rfl) rfl (reads_count summary.operands) _) <|
    .nil _

theorem reads_summary (layout : Layout) (summary : DetailSummary) :
    Reads read (write layout summary.toJson) summary := by
  refine (reads_members layout summary).imp fun text rest hfound => ?_
  rw [read, hfound]
  rfl

end DetailSummary

/-! ### Records -/

namespace Record

def Draft.ofRecord (record : Record) : Draft where
  address := some record.address
  id := some record.id
  size := some record.size
  mnemonic := some record.mnemonic
  operands := some record.operands
  bytes := some record.bytes
  detail := record.detail.map some

theorem Draft.finish_ofRecord (record : Record) :
    (Draft.ofRecord record).finish = some record := by
  cases record with
  | mk address id size mnemonic operands bytes detail => cases detail <;> rfl

theorem reads_size (size : UInt16) : Reads readSize (Nat.toDigits 10 size.toNat) size :=
  reads_word size.toNat_lt (by decide) (by rw [Nat.toUInt16_eq, UInt16.ofNat_toNat])

theorem takesAll_detail (layout : Layout) (draft : Draft) (hdraft : draft.detail = none)
    (detail : Option DetailSummary) :
    TakesAll form draft
      (writeMembers layout (detail.map fun summary => ("detail", summary.toJson)).toList)
      { draft with detail := detail.map some } := by
  cases detail with
  | none =>
    have hsame : { draft with detail := Option.none } = draft := hdraft ▸ rfl
    rw [Option.map_none, Option.map_none, hsame]
    exact .nil _
  | some summary =>
    have hnull : (write layout summary.toJson).head? ≠ some 'n' := by
      rw [DetailSummary.toJson, write, head?_bracketed]
      decide
    have hread := (DetailSummary.reads_summary layout summary).option hnull
    exact .member (takes_once (fun _ => rfl) hdraft hread layout) (.nil _)

theorem reads_members (layout : Layout) (record : Record) :
    Reads form.read (write layout record.toJson) (Draft.ofRecord record) :=
  reads_object <|
    .member (takes_once (fun _ => rfl) rfl (reads_text record.address) _) <|
    .member (takes_once (fun _ => rfl) rfl (reads_id record.id) _) <|
    .member (takes_once (fun _ => rfl) rfl (reads_size record.size) _) <|
    .member (takes_once (fun _ => rfl) rfl (reads_text record.mnemonic) _) <|
    .member (takes_once (fun _ => rfl) rfl (reads_text record.operands) _) <|
    .member (takes_once (fun _ => rfl) rfl (reads_text record.bytes) _) <|
    takesAll_detail _ _ rfl record.detail

theorem reads_record (layout : Layout) (record : Record) :
    Reads read (write layout record.toJson) record := by
  refine (reads_members layout record).imp fun text rest hfound => ?_
  rw [read, hfound]
  simp only [Draft.finish_ofRecord]

end Record

/-! ### Documents -/

namespace Document

def Draft.ofDocument (document : Document) : Draft where
  baseAddress := some document.baseAddress
  instructions := some document.instructions

def ofInsns (insns : List Insn) (base : UInt64) : Document where
  baseAddress := Numeral.hex base.toNat
  instructions := insns.map Record.ofInsn

theorem reads_records (layout : Layout) (insns : List Insn) :
    Reads (readArray Record.read)
      (write layout (.array (insns.map fun insn => (Record.ofInsn insn).toJson)))
      (insns.map Record.ofInsn) := by
  have hrecords : Reads (readArray Record.read)
      (write layout (.array ((insns.map Record.ofInsn).map Record.toJson)))
      (insns.map Record.ofInsn) :=
    reads_array layout fun record _ => Record.reads_record layout.inner record
  rwa [List.map_map] at hrecords

theorem reads_members (layout : Layout) (insns : List Insn) (base : UInt64) :
    Reads form.read (write layout (Format.document insns base))
      (Draft.ofDocument (ofInsns insns base)) :=
  reads_object <|
    .member (takes_once (fun _ => rfl) rfl (reads_text (Numeral.hex base.toNat)) _) <|
    .member (takes_once (fun _ => rfl) rfl (reads_records _ insns) _) <|
    .nil _

theorem reads_document (layout : Layout) (insns : List Insn) (base : UInt64) :
    Reads read (write layout (Format.document insns base)) (ofInsns insns base) := by
  refine (reads_members layout insns base).imp fun text rest hfound => ?_
  rw [read, hfound]
  rfl

end Document

/-! ### Whole outputs -/

theorem Record.ofJson_compact (record : Record) :
    Record.ofJson record.toJson.compact = .ok record :=
  readDocument_written (Record.reads_record .compact record)

theorem Document.ofJson_pretty (insns : List Insn) (base : UInt64) :
    Document.ofJson (Format.document insns base).pretty = .ok (Document.ofInsns insns base) :=
  readDocument_written (Document.reads_document (.pretty 0) insns base)

theorem Record.newline_not_mem_compact (record : Record) : '\n' ∉ record.toJson.compact.toList := by
  rw [Value.compact, String.toList_ofList]
  exact newline_not_mem_write record.toJson

/-- The summary is the one member that may be left out, and it is left out just when absent. -/
theorem Record.members_toJson (record : Record) : ∃ members, record.toJson = .object members ∧
    ("detail" ∈ members.map Prod.fst ↔ record.detail.isSome = true) := by
  refine ⟨_, rfl, ?_⟩
  cases record with
  | mk address id size mnemonic operands bytes detail => cases detail <;> simp

/-- What a record says of an instruction. The raw bytes stand there only with a payload, of which
there are the sets of ids and the number of operands, a 64-bit word. -/
structure Record.Shows (record : Record) (insn : Insn) : Prop where
  address : record.address = "0x" ++ String.ofList (Nat.toDigits 16 insn.address.toNat)
  id : record.id = insn.id
  size : record.size = insn.size
  mnemonic : record.mnemonic = insn.mnemonic.text
  operands : record.operands = insn.opStr.text
  bytes : record.bytes =
    if insn.detail.isSome then String.ofList ([' '].intercalate (insn.raw.map Numeral.hexByte))
    else ""
  detail : record.detail = insn.payload.map fun detail =>
    ⟨detail.regsRead.ids, detail.regsWrite.ids, detail.groups.ids,
      detail.operands.length.toUInt64⟩

theorem Record.shows_ofInsn (insn : Insn) : (Record.ofInsn insn).Shows insn :=
  ⟨rfl, rfl, rfl, rfl, rfl, rfl, rfl⟩

/-- Both JSON formats lose nothing of the records they show, and a record alone is read back from
its compact form. A record shows the fields of its instruction. -/
theorem Format.json_lossless :
    (∀ (insns : List Insn) (base : UInt64),
      (∃ lines : List String,
        Format.render .jsonLines insns base = String.join (lines.map (· ++ "\n")) ∧
          (∀ line ∈ lines, '\n' ∉ line.toList) ∧
          lines.map Record.ofJson = insns.map fun insn => .ok (Record.ofInsn insn)) ∧
      (Format.render .json insns base).toList.head? = some '\x7b' ∧
      Document.ofJson (Format.render .json insns base) =
        .ok { baseAddress := "0x" ++ String.ofList (Nat.toDigits 16 base.toNat),
              instructions := insns.map Record.ofInsn }) ∧
    (∀ insn : Insn, (Record.ofInsn insn).Shows insn) ∧
    ∀ record : Record, Record.ofJson record.toJson.compact = .ok record ∧
      ∃ members, record.toJson = .object members ∧
        ("detail" ∈ members.map Prod.fst ↔ record.detail.isSome = true) := by
  refine ⟨?_, Record.shows_ofInsn, ?_⟩
  · intro insns base
    refine ⟨⟨insns.map fun insn => (Record.ofInsn insn).toJson.compact, ?_, ?_, ?_⟩, ?_, ?_⟩
    · rw [List.map_map]
      rfl
    · intro line hline
      obtain ⟨insn, -, rfl⟩ := List.mem_map.mp hline
      exact (Record.ofInsn insn).newline_not_mem_compact
    · rw [List.map_map]
      refine List.map_congr_left fun insn _ => ?_
      rw [Function.comp_apply, Record.ofJson_compact]
    · rw [Format.render, Format.renderJson, Value.pretty, String.toList_ofList, Format.document,
        write]
      exact head?_bracketed ..
    · exact Document.ofJson_pretty insns base
  · intro record
    exact ⟨record.ofJson_compact, record.members_toJson⟩

end Disassembly
