import Disassembly.Format
import Disassembly.Format.CsvReader
/-!
# Rows, written and read back

Whatever its characters, a field comes back from its written form, and so do the rows: no comma,
quote or line break of a field is taken for one between fields. A listing is read back as a header
and one row for each record.
-/
namespace Disassembly

namespace Csv

namespace Cursor

variable {cursor next : Cursor} {c : Char} {field text : List Char} {row fields : List String}
  {rows : List (List String)}

theorem run_append (cursor : Cursor) (text rest : List Char) :
    cursor.run (text ++ rest) = (cursor.run text).bind fun next => next.run rest := by
  rw [run, List.foldlM_append]
  rfl

theorem run_cons (h : cursor.step c = some next) (text : List Char) :
    cursor.run (c :: text) = next.run text := by
  rw [run, List.foldlM_cons, h]
  rfl

theorem step_plain (hplace : cursor.place = .start ∨ cursor.place = .bare)
    (hc : isSpecial c = false) :
    cursor.step c = some { cursor.take c with place := .bare } := by
  simp only [isSpecial, Bool.or_eq_false_iff, beq_eq_false_iff_ne] at hc
  obtain ⟨⟨⟨hcomma, hquote⟩, hfeed⟩, hreturn⟩ := hc
  rcases hplace with hplace | hplace <;>
    simp [step, stepBare, hplace, hcomma, hquote, hfeed, hreturn]

theorem run_plain (hplace : cursor.place = .start ∨ cursor.place = .bare)
    (hfield : ∀ c ∈ field, isSpecial c = false) :
    ∃ place, (place = .start ∨ place = .bare) ∧
      cursor.run field = some { cursor with place, field := cursor.field ++ field } := by
  induction field generalizing cursor with
  | nil => exact ⟨cursor.place, hplace, by simp [run]⟩
  | cons c field ih =>
    obtain ⟨hc, hfield⟩ := List.forall_mem_cons.1 hfield
    have hbare : ({ cursor.take c with place := .bare } : Cursor).place = .start ∨
        ({ cursor.take c with place := .bare } : Cursor).place = .bare := .inr rfl
    obtain ⟨place, hend, hrun⟩ := ih hbare hfield
    refine ⟨place, hend, ?_⟩
    rw [run_cons (step_plain hplace hc), hrun]
    simp [take]

/-- Between quotes only the doubled ones are seen as something else than they are. -/
theorem run_quoted (hplace : cursor.place = .quoted) (field : List Char) :
    cursor.run (field.flatMap fun c => if c = '"' then ['"', '"'] else [c]) =
      some { cursor with field := cursor.field ++ field } := by
  induction field generalizing cursor with
  | nil => simp [run]
  | cons c field ih =>
    have hquoted : (cursor.take c).place = .quoted := hplace
    have hrest := ih hquoted
    rw [List.flatMap_cons, run_append]
    by_cases hquote : c = '"'
    · subst hquote
      have hdouble : cursor.run ['"', '"'] = some (cursor.take '"') := by
        obtain ⟨place, taken, row, rows⟩ := cursor
        subst hplace
        rfl
      rw [if_pos rfl, hdouble, Option.bind_some, hrest]
      simp [take]
    · have hsingle : cursor.run [c] = some (cursor.take c) := by
        simp [run, step, hplace, hquote]
      rw [if_neg hquote, hsingle, Option.bind_some, hrest]
      simp [take]

/-- A written field is read up to where it ends, wherever that leaves the reading. -/
theorem run_writeField (field : List Char) (row : List String) (rows : List (List String)) :
    ∃ place, place ≠ .quoted ∧ place ≠ .returned ∧
      (before row rows).run (writeField field) = some { place, field, row, rows } := by
  by_cases hspecial : field.any isSpecial = true
  · refine ⟨.closed, by decide, by decide, ?_⟩
    have hopen : (before row rows).step '"' = some ⟨.quoted, [], row, rows⟩ := rfl
    rw [writeField, if_pos hspecial, List.cons_append, run_cons hopen, run_append,
      run_quoted rfl, Option.bind_some]
    rfl
  · have hfield : ∀ c ∈ field, isSpecial c = false := by simpa using hspecial
    have hstart : (before row rows).place = .start ∨ (before row rows).place = .bare := .inl rfl
    obtain ⟨place, hplace, hrun⟩ := run_plain hstart hfield
    rw [writeField, if_neg hspecial]
    rcases hplace with rfl | rfl
    · exact ⟨_, by decide, by decide, hrun⟩
    · exact ⟨_, by decide, by decide, hrun⟩

theorem step_comma (hquoted : cursor.place ≠ .quoted) (hreturned : cursor.place ≠ .returned) :
    cursor.step ',' = some (before cursor.fields cursor.rows) := by
  obtain ⟨place, taken, row, rows⟩ := cursor
  cases place with
  | start | bare | closed => rfl
  | quoted => exact absurd rfl hquoted
  | returned => exact absurd rfl hreturned

theorem step_feed (hquoted : cursor.place ≠ .quoted) (hreturned : cursor.place ≠ .returned) :
    cursor.step '\n' = some (before [] (cursor.rows ++ [cursor.fields])) := by
  obtain ⟨place, taken, row, rows⟩ := cursor
  cases place with
  | start | bare | closed => rfl
  | quoted => exact absurd rfl hquoted
  | returned => exact absurd rfl hreturned

theorem run_writeRow (hfields : fields ≠ []) (row : List String) (rows : List (List String)) :
    (before row rows).run (writeRow fields) = some (before [] (rows ++ [row ++ fields])) := by
  induction fields generalizing row with
  | nil => exact absurd rfl hfields
  | cons field fields ih =>
    obtain ⟨place, hquoted, hreturned, hrun⟩ := run_writeField field.toList row rows
    cases fields with
    | nil =>
      have hwritten : writeRow [field] = writeField field.toList ++ ['\n'] := by
        simp [writeRow, List.intercalate]
      rw [hwritten, run_append, hrun, Option.bind_some, run_cons (step_feed hquoted hreturned)]
      simp [run, Cursor.fields]
    | cons other fields =>
      have hwritten : writeRow (field :: other :: fields) =
          writeField field.toList ++ ',' :: writeRow (other :: fields) := by
        simp [writeRow, List.intercalate]
      rw [hwritten, run_append, hrun, Option.bind_some, run_cons (step_comma hquoted hreturned),
        ih (List.cons_ne_nil other fields)]
      simp [Cursor.fields]

theorem run_flatMap_writeRow {written : List (List String)} (h : ∀ row ∈ written, row ≠ [])
    (rows : List (List String)) :
    (before [] rows).run (written.flatMap writeRow) = some (before [] (rows ++ written)) := by
  induction written generalizing rows with
  | nil => simp [run]
  | cons row written ih =>
    obtain ⟨hrow, h⟩ := List.forall_mem_cons.1 h
    rw [List.flatMap_cons, run_append, run_writeRow hrow, Option.bind_some, ih h]
    simp

end Cursor

/-- Rows with at least one field each are read back as they were written. -/
theorem readRows_writeRows {rows : List (List String)} (h : ∀ row ∈ rows, row ≠ []) :
    readRows (writeRows rows) = some rows := by
  rw [readRows, writeRows, String.toList_ofList, Cursor.run_flatMap_writeRow h]
  rfl

example : readRows "a,\"b,\"\"c\"\r\nd," = some [["a", "b,\"c"], ["d", ""]] := by decide

end Csv

namespace Format

/-- What a listing shows of a record: where it was decoded and where it starts as numerals with
`0x`, numbers in decimal, texts and bytes, and how many operands there are if there is a payload.
The number of operands is a 64-bit word. -/
def shownRow (base : UInt64) (insn : Insn) : List String :=
  ["0x" ++ String.ofList (Nat.toDigits 16 base.toNat),
    "0x" ++ String.ofList (Nat.toDigits 16 insn.address.toNat),
    toString insn.id.toNat, toString insn.size.toNat, insn.mnemonic.text, insn.opStr.text,
    if insn.detail.isSome then String.ofList ([' '].intercalate (insn.raw.map Numeral.hexByte))
    else "",
    match insn.payload with
    | some detail => toString detail.operands.length.toUInt64.toNat
    | none => ""]

theorem csvRow_eq_shownRow (base : UInt64) (insn : Insn) :
    csvRow base insn = shownRow base insn := by
  simp only [csvRow, shownRow, Record.ofInsn, Insn.shownBytes, Insn.payload]
  cases insn.detail <;> rfl

/-- Of any records a listing is read back as a header and one row for each of them, in order and
with nothing lost; of none at all there is not even the header. -/
theorem csv_reads_back (base : UInt64) :
    Format.render .csv [] base = "" ∧
    ∀ insns : List Insn, insns ≠ [] → ∃ rows,
      Csv.readRows (Format.render .csv insns base) = some rows ∧
        rows = ["base_address", "address", "id", "size", "mnemonic", "operands", "bytes",
          "operand_count"] :: insns.map (shownRow base) ∧
        rows.length = insns.length + 1 ∧ ∀ row ∈ rows, row.length = 8 := by
  refine ⟨rfl, ?_⟩
  intro insns hinsns
  have hrows : insns.map (csvRow base) = insns.map (shownRow base) :=
    List.map_congr_left fun insn _ => csvRow_eq_shownRow base insn
  have hwidth : ∀ row ∈ csvHeader :: insns.map (shownRow base), row.length = 8 := by
    intro row hrow
    rcases List.mem_cons.1 hrow with rfl | hrow
    · rfl
    · obtain ⟨insn, -, rfl⟩ := List.mem_map.1 hrow
      rfl
  have hnonempty : ∀ row ∈ csvHeader :: insns.map (shownRow base), row ≠ [] := by
    rintro row hrow rfl
    cases hwidth [] hrow
  have hempty : ¬ insns.isEmpty = true := by simpa using hinsns
  refine ⟨_, ?_, rfl, by simp, hwidth⟩
  rw [render, renderCsv, if_neg hempty, hrows]
  exact Csv.readRows_writeRows hnonempty

/-- A record whose texts are made of what separates fields and rows. -/
theorem csv_reads_back_separators :
    let insn := (({ address := 0x10, size := 2 } : Insn).setMnemonic "a,\"b\r\n\"").setOpStr ",\"\n"
    Csv.readRows (Format.render .csv [insn] 0xff) =
      some [["base_address", "address", "id", "size", "mnemonic", "operands", "bytes",
          "operand_count"],
        ["0xff", "0x10", "0", "2", "a,\"b\r\n\"", ",\"\n", "", ""]] := by
  intro insn
  obtain ⟨rows, hread, hrows, -, -⟩ := (csv_reads_back 0xff).2 [insn] (List.cons_ne_nil _ _)
  have hshown : shownRow 0xff insn =
      ["0xff", "0x10", "0", "2", "a,\"b\r\n\"", ",\"\n", "", ""] := by
    decide +kernel
  rw [hread, hrows, List.map_singleton, hshown]

end Format

end Disassembly
