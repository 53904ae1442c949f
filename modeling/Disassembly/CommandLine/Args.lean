import Disassembly.Arch
import Disassembly.Format
import Disassembly.Text.Address
/-!
The arguments of the command line. They are read from left to right; an option waits for its value
until the next argument, and what is wrong with an option is reported before anything that comes
after it, except that an argument nobody knows is reported in place of a fault of the option
directly before it.
-/
namespace Disassembly.CommandLine

inductive Complaint where
  | missingRequiredArgument
  | invalidValue
  | valueValidation
  | argumentConflict
  | unknownArgument
  | tooManyValues
  | displayHelp
  | displayVersion
  deriving DecidableEq, Repr

namespace Complaint

def name : Complaint → String
  | missingRequiredArgument => "MissingRequiredArgument"
  | invalidValue => "InvalidValue"
  | valueValidation => "ValueValidation"
  | argumentConflict => "ArgumentConflict"
  | unknownArgument => "UnknownArgument"
  | tooManyValues => "TooManyValues"
  | displayHelp => "DisplayHelp"
  | displayVersion => "DisplayVersion"

def exitCode : Complaint → UInt32
  | displayHelp | displayVersion => 0
  | _ => 2

end Complaint

structure Args where
  hex : Option String
  file : Option String
  arch : Arch := .x86
  mode : Option Mode := none
  config : Option String := none
  detail : Bool := false
  dialect : Dialect := .default
  address : UInt64 := 0x1000
  count : Nat := 0
  format : Format := .text
  deriving Repr

inductive Key where
  | hex
  | file
  | arch
  | mode
  | config
  | dialect
  | address
  | count
  | format
  deriving DecidableEq, Repr

inductive Switch where
  | valued (key : Key)
  | detail
  | help
  | version
  deriving DecidableEq, Repr

def switches : List (String × Switch) :=
  [("hex", .valued .hex), ("file", .valued .file), ("arch", .valued .arch),
    ("mode", .valued .mode), ("config", .valued .config), ("detail", .detail),
    ("syntax", .valued .dialect), ("address", .valued .address), ("count", .valued .count),
    ("format", .valued .format), ("help", .help), ("version", .version)]

structure Draft where
  hex : Option String := none
  file : Option String := none
  arch : Option Arch := none
  mode : Option Mode := none
  config : Option String := none
  detail : Bool := false
  dialect : Option Dialect := none
  address : Option UInt64 := none
  count : Option Nat := none
  format : Option Format := none

def settle (slot : Option α) (value : Except Complaint α) (set : Option α → Draft) :
    Except Complaint Draft :=
  if slot.isSome then .error .argumentConflict
  else value.map fun value => set (some value)

def chooseExactly (alternatives : List (String × α)) (value : String) : Except Complaint α :=
  match Text.choose? false alternatives value with
  | some chosen => .ok chosen
  | none => .error .invalidValue

def validated (result : Except ε α) : Except Complaint α :=
  result.mapError fun _ => .valueValidation

def path (value : String) : Except Complaint String :=
  if value = "" then .error .invalidValue else .ok value

namespace Draft

def assign (draft : Draft) (key : Key) (value : String) : Except Complaint Draft :=
  match key with
  | .hex => settle draft.hex (.ok value) ({ draft with hex := · })
  | .file => settle draft.file (path value) ({ draft with file := · })
  | .arch => settle draft.arch (chooseExactly Arch.keys value) ({ draft with arch := · })
  | .mode => settle draft.mode (validated (Mode.read value)) ({ draft with mode := · })
  | .config => settle draft.config (path value) ({ draft with config := · })
  | .dialect =>
    settle draft.dialect (chooseExactly Dialect.optionKeys value) ({ draft with dialect := · })
  | .address => settle draft.address (validated (Address.read value)) ({ draft with address := · })
  | .count =>
    settle draft.count (validated (Numeral.read 10 UInt64.size value.toList))
      ({ draft with count := · })
  | .format => settle draft.format (chooseExactly Format.keys value) ({ draft with format := · })

/-- The arguments, which have to name exactly one source of code. -/
def finish (draft : Draft) : Except Complaint Args :=
  if draft.hex.isSome && draft.file.isSome then .error .argumentConflict
  else if draft.hex.isNone && draft.file.isNone then .error .missingRequiredArgument
  else
    .ok
      { hex := draft.hex
        file := draft.file
        arch := draft.arch.getD .x86
        mode := draft.mode
        config := draft.config
        detail := draft.detail
        dialect := draft.dialect.getD .default
        address := draft.address.getD 0x1000
        count := draft.count.getD 0
        format := draft.format.getD .text }

end Draft

/-- The last option with a value, which has not been looked at yet. -/
inductive Pending where
  | none
  | waiting (key : Key)
  | given (key : Key) (value : String)

def Pending.resolve (pending : Pending) (draft : Draft) : Except Complaint Draft :=
  match pending with
  | none => .ok draft
  | waiting _ => .error .invalidValue
  | given key value => draft.assign key value

def splitLong (body : List Char) : String × Option String :=
  let name := body.takeWhile (· != '=')
  match body.dropWhile (· != '=') with
  | [] => (String.ofList name, .none)
  | _ :: value => (String.ofList name, some (String.ofList value))

def takeLong (draft : Draft) (pending : Pending) (body : List Char) :
    Except Complaint (Draft × Pending) :=
  let (name, value) := splitLong body
  match switches.lookup name, value with
  | none, _ => .error .unknownArgument
  | some (.valued key), none => (pending.resolve draft).map fun draft => (draft, .waiting key)
  | some (.valued key), some value => do
    let draft ← pending.resolve draft
    let draft ← draft.assign key value
    return (draft, .none)
  | some _, some _ => .error .tooManyValues
  | some .detail, none => do
    let draft ← pending.resolve draft
    if draft.detail then .error .argumentConflict
    else return ({ draft with detail := true }, .none)
  | some .help, none => do
    let _ ← pending.resolve draft
    .error .displayHelp
  | some .version, none => do
    let _ ← pending.resolve draft
    .error .displayVersion

def takeShort (draft : Draft) (pending : Pending) (letter : Char) : Complaint :=
  let settled (complaint : Complaint) : Complaint :=
    match pending.resolve draft with
    | .ok _ => complaint
    | .error earlier => earlier
  if letter = 'h' then settled .displayHelp
  else if letter = 'V' then settled .displayVersion
  else .unknownArgument

/-- Reads arguments one after the other. Behind two dashes alone there are only arguments that
nobody knows. -/
def readArgs (draft : Draft) (pending : Pending) : List String → Except Complaint Draft
  | [] => pending.resolve draft
  | arg :: rest =>
    match arg.toList with
    | ['-', '-'] => if rest.isEmpty then pending.resolve draft else .error .unknownArgument
    | '-' :: '-' :: body =>
      match takeLong draft pending body with
      | .ok (draft, pending) => readArgs draft pending rest
      | .error complaint => .error complaint
    | '-' :: letter :: _ => .error (takeShort draft pending letter)
    | _ =>
      match pending with
      | .waiting key => readArgs draft (.given key arg) rest
      | _ => .error .unknownArgument

def Args.read (args : List String) : Except Complaint Args :=
  match readArgs {} .none args with
  | .ok draft => draft.finish
  | .error complaint => .error complaint

end Disassembly.CommandLine
