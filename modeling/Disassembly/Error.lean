/-!
The flat error taxonomy shared by every operation of the engine. Each error has a stable numeric
code; zero is reserved for success.
-/
namespace Disassembly

inductive Error where
  | outOfMemory
  | unsupportedArch
  | unsupportedQuery
  | invalidHandle
  | invalidMode
  | invalidOption
  | detailUnavailable
  | memoryNotConfigured
  deriving DecidableEq, Repr, Inhabited

namespace Error

def code : Error → UInt32
  | outOfMemory => 1
  | unsupportedArch => 2
  | unsupportedQuery => 3
  | invalidHandle => 4
  | invalidMode => 5
  | invalidOption => 6
  | detailUnavailable => 7
  | memoryNotConfigured => 8

def ofCode? (code : UInt32) : Option Error :=
  match code.toNat with
  | 1 => some outOfMemory
  | 2 => some unsupportedArch
  | 3 => some unsupportedQuery
  | 4 => some invalidHandle
  | 5 => some invalidMode
  | 6 => some invalidOption
  | 7 => some detailUnavailable
  | 8 => some memoryNotConfigured
  | _ => none

def message : Error → String
  | outOfMemory => "Out of memory"
  | unsupportedArch => "Unsupported architecture"
  | unsupportedQuery => "Invalid handle for this query"
  | invalidHandle => "Invalid handle"
  | invalidMode => "Invalid mode"
  | invalidOption => "Invalid option"
  | detailUnavailable => "Details are unavailable"
  | memoryNotConfigured => "Dynamic memory management uninitialized"

def name : Error → String
  | outOfMemory => "OutOfMemory"
  | unsupportedArch => "UnsupportedArch"
  | unsupportedQuery => "UnsupportedQuery"
  | invalidHandle => "InvalidHandle"
  | invalidMode => "InvalidMode"
  | invalidOption => "InvalidOption"
  | detailUnavailable => "DetailUnavailable"
  | memoryNotConfigured => "MemoryNotConfigured"

/-- Description of any numeric code, success and unknown codes included. -/
def describe (code : UInt32) : String :=
  if code = 0 then "OK"
  else match ofCode? code with
    | some error => error.message
    | none => "Unknown error code"

theorem ofCode?_code (error : Error) : ofCode? error.code = some error := by
  cases error <;> rfl

theorem describe_code (error : Error) : describe error.code = error.message := by
  cases error <;> rfl

end Error

end Disassembly
