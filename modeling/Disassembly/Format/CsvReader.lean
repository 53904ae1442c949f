import Disassembly.Format.Csv
/-!
Reading comma-separated values, one character at a time. Rows end at a line feed, with or without
a carriage return before it, or at the end of the text. Between quotes everything stands for
itself but a quote, which is doubled; a quote inside a bare field, a character behind a closing
quote and an open quote at the end are refused.
-/
namespace Disassembly.Csv

/-- Where a reading stands: before a field, in a bare one, between quotes, behind a quote that
closes the field unless another one follows, or behind the carriage return that ends a row. -/
inductive Place where
  | start
  | bare
  | quoted
  | closed
  | returned
  deriving DecidableEq, Repr

/-- A reading under way, with the field and the row that are not complete yet. -/
structure Cursor where
  place : Place
  field : List Char
  row : List String
  rows : List (List String)

namespace Cursor

def before (row : List String) (rows : List (List String)) : Cursor :=
  { place := .start, field := [], row, rows }

def take (cursor : Cursor) (c : Char) : Cursor := { cursor with field := cursor.field ++ [c] }

def fields (cursor : Cursor) : List String := cursor.row ++ [String.ofList cursor.field]

def endField (cursor : Cursor) : Cursor := before cursor.fields cursor.rows

def endRow (cursor : Cursor) : Cursor := before [] (cursor.rows ++ [cursor.fields])

def stepBare (cursor : Cursor) (c : Char) : Option Cursor :=
  if c = ',' then some cursor.endField
  else if c = '\n' then some cursor.endRow
  else if c = '\r' then some { cursor with place := .returned }
  else
    match cursor.place, c with
    | .start, '"' => some { cursor with place := .quoted }
    | .closed, '"' => some { cursor.take c with place := .quoted }
    | _, '"' | .closed, _ => none
    | _, _ => some { cursor.take c with place := .bare }

def step (cursor : Cursor) (c : Char) : Option Cursor :=
  match cursor.place with
  | .quoted => some (if c = '"' then { cursor with place := .closed } else cursor.take c)
  | .returned => if c = '\n' then some cursor.endRow else none
  | .start | .bare | .closed => cursor.stepBare c

def run (cursor : Cursor) (text : List Char) : Option Cursor := text.foldlM step cursor

def finish (cursor : Cursor) : Option (List (List String)) :=
  match cursor.place with
  | .quoted | .returned => none
  | .start => some (if cursor.row.isEmpty then cursor.rows else cursor.endRow.rows)
  | .bare | .closed => some cursor.endRow.rows

end Cursor

def readRows (text : String) : Option (List (List String)) :=
  ((Cursor.before [] []).run text.toList).bind Cursor.finish

end Disassembly.Csv
