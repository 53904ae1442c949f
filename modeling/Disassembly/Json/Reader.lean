import Disassembly.Json.Skip
/-!
Reading JSON into values of a known form. A structure is written as an object, its members in any
order, or as an array of its fields in order; a member that nobody asked for is skipped or
refused, and one given twice is refused.
-/
namespace Disassembly.Json

def faultBehind (result : Except Fault α) : Fault :=
  match result with
  | .error fault => fault
  | .ok _ => .mismatch

/-- The fault of finding something else than was wanted. Scalars are read to their end first, as
they may be malformed themselves. -/
def mismatchAt (text : List Char) : Fault :=
  match text with
  | [] => .ended
  | 'n' :: rest => faultBehind (expect "ull".toList rest)
  | 't' :: rest => faultBehind (expect "rue".toList rest)
  | 'f' :: rest => faultBehind (expect "alse".toList rest)
  | '"' :: rest => faultBehind (readString rest)
  | '[' :: _ => .mismatch
  | '\x7b' :: _ => .mismatch
  | '-' :: rest => faultBehind (readUnsignedNumber true rest)
  | c :: rest => if c.isDigit then faultBehind (readNumber (c :: rest)) else .malformed

def readText (text : List Char) : Reading String :=
  match skipBlanks text with
  | '"' :: rest =>
    match readString rest with
    | .error fault => .error fault
    | .ok (string, rest) => .ok (String.ofList string, rest)
  | text => .error (mismatchAt text)

def readNat (bound : Nat) (text : List Char) : Reading Nat :=
  match skipBlanks text with
  | [] => .error .ended
  | c :: rest =>
    if c = '-' ∨ c.isDigit then
      match readNumber (c :: rest) with
      | .error fault => .error fault
      | .ok (.natural n, rest) => if n < bound then .ok (n, rest) else .error .mismatch
      | .ok (.other, _) => .error .mismatch
    else .error (mismatchAt (c :: rest))

def readBool (text : List Char) : Reading Bool :=
  match skipBlanks text with
  | 't' :: rest =>
    match expect "rue".toList rest with
    | .ok rest => .ok (true, rest)
    | .error fault => .error fault
  | 'f' :: rest =>
    match expect "alse".toList rest with
    | .ok rest => .ok (false, rest)
    | .error fault => .error fault
  | text => .error (mismatchAt text)

def readOption (read : List Char → Reading α) (text : List Char) : Reading (Option α) :=
  match skipBlanks text with
  | 'n' :: rest =>
    match expect "ull".toList rest with
    | .ok rest => .ok (none, rest)
    | .error fault => .error fault
  | text =>
    match read text with
    | .ok (value, rest) => .ok (some value, rest)
    | .error fault => .error fault

def readNull (text : List Char) : Except Fault (List Char) :=
  match skipBlanks text with
  | 'n' :: rest => expect "ull".toList rest
  | text => .error (mismatchAt text)

/-- The name that a member of an object starts with. Nothing but a string can be one, so any
other value there spoils the object itself and is not a mismatch. -/
def readKey (text : List Char) : Reading String :=
  match skipBlanks text with
  | [] => .error .ended
  | '"' :: rest =>
    match readString rest with
    | .ok (name, rest) => .ok (String.ofList name, rest)
    | .error fault => .error fault
  | _ => .error .malformed

def readColon (text : List Char) : Except Fault (List Char) :=
  match skipBlanks text with
  | [] => .error .ended
  | ':' :: rest => .ok rest
  | _ => .error .malformed

def nextElement (first : Bool) (text : List Char) : Reading Bool :=
  match skipBlanks text with
  | [] => .error .ended
  | ']' :: rest => .ok (false, ']' :: rest)
  | c :: rest =>
    if first then .ok (true, c :: rest)
    else if c = ',' then
      match skipBlanks rest with
      | [] => .error .ended
      | ']' :: _ => .error .malformed
      | rest => .ok (true, rest)
    else .error .malformed

def closeArray (text : List Char) : Except Fault (List Char) :=
  match skipBlanks text with
  | [] => .error .ended
  | ']' :: rest => .ok rest
  | _ => .error .malformed

/-- Elements up to the closing bracket. Each takes at least one character, so that there are no
more than `steps` of them. -/
def readElements (read : List Char → Reading α) : Nat → Bool → List Char → Reading (List α)
  | 0, _, _ => .error .ended
  | steps + 1, first, text =>
    match nextElement first text with
    | .error fault => .error fault
    | .ok (false, text) =>
      match closeArray text with
      | .ok rest => .ok ([], rest)
      | .error fault => .error fault
    | .ok (true, text) =>
      match read text with
      | .error fault => .error fault
      | .ok (item, text) =>
        match readElements read steps false text with
        | .ok (items, rest) => .ok (item :: items, rest)
        | .error fault => .error fault

def readArray (read : List Char → Reading α) (text : List Char) : Reading (List α) :=
  match skipBlanks text with
  | '[' :: rest => readElements read (rest.length + 1) true rest
  | text => .error (mismatchAt text)

/-- One of several names. A name may also be the only member of an object, with the value
`null`. -/
def readChoice (alternatives : List (String × α)) (text : List Char) : Reading α :=
  let chosen (name : String) : Except Fault α :=
    match alternatives.lookup name with
    | some value => .ok value
    | none => .error .mismatch
  match skipBlanks text with
  | [] => .error .ended
  | '"' :: rest =>
    match readString rest with
    | .error fault => .error fault
    | .ok (name, rest) => (chosen (String.ofList name)).map fun value => (value, rest)
  | '\x7b' :: rest =>
    match readKey rest with
    | .error fault => .error fault
    | .ok (name, rest) =>
      match chosen name with
      | .error fault => .error fault
      | .ok value =>
        match readColon rest with
        | .error fault => .error fault
        | .ok rest =>
          match readNull rest with
          | .error fault => .error fault
          | .ok rest =>
            match skipBlanks rest with
            | [] => .error .ended
            | '\x7d' :: rest => .ok (value, rest)
            | _ => .error .malformed
  | _ => .error .malformed

/-- How the members of a structure are taken in. `member` gets a member's name and the text
behind it, with the colon still to come; `field` gets the number of a field and its text, or no
text when the array ended before it. -/
structure Form (σ : Type) where
  start : σ
  member : σ → String → List Char → Reading σ
  fields : List (σ → Option (List Char) → Reading σ)

def readMembers (form : Form σ) : Nat → Bool → σ → List Char → Reading σ
  | 0, _, _, _ => .error .ended
  | steps + 1, first, state, text =>
    match skipBlanks text with
    | [] => .error .ended
    | '\x7d' :: rest => .ok (state, rest)
    | c :: rest =>
      if !first && c != ',' then .error .malformed
      else
        match readKey (if first then c :: rest else rest) with
        | .error fault => .error fault
        | .ok (name, rest) =>
          match form.member state name rest with
          | .error fault => .error fault
          | .ok (state, rest) => readMembers form steps false state rest

def readFields : List (σ → Option (List Char) → Reading σ) → Bool → σ → List Char → Reading σ
  | [], _, state, text =>
    match closeArray text with
    | .ok rest => .ok (state, rest)
    | .error fault => .error fault
  | field :: fields, first, state, text =>
    match nextElement first text with
    | .error fault => .error fault
    | .ok (more, text) =>
      match field state (if more then some text else none) with
      | .error fault => .error fault
      | .ok (state, rest) => readFields fields false state (if more then rest else text)

def Form.read (form : Form σ) (text : List Char) : Reading σ :=
  match skipBlanks text with
  | '\x7b' :: rest => readMembers form (rest.length + 1) true form.start rest
  | '[' :: rest => readFields form.fields true form.start rest
  | text => .error (mismatchAt text)

def readOnce (slot : Option α) (read : List Char → Reading α) (text : List Char) :
    Reading (Option α) :=
  if slot.isSome then .error .mismatch
  else
    match readColon text with
    | .error fault => .error fault
    | .ok rest =>
      match read rest with
      | .error fault => .error fault
      | .ok (value, rest) => .ok (some value, rest)

def readField (required : Bool) (read : List Char → Reading α) (text : Option (List Char)) :
    Reading (Option α) :=
  match text with
  | none => if required then .error .mismatch else .ok (none, [])
  | some text =>
    match read text with
    | .error fault => .error fault
    | .ok (value, rest) => .ok (some value, rest)

def skipMember (state : σ) (text : List Char) : Reading σ :=
  match readColon text with
  | .error fault => .error fault
  | .ok rest =>
    match skipValue rest with
    | .error fault => .error fault
    | .ok rest => .ok (state, rest)

def reading (change : α → β) (result : Reading α) : Reading β :=
  match result with
  | .error fault => .error fault
  | .ok (value, rest) => .ok (change value, rest)

def readDocument (read : List Char → Reading α) (text : String) : Except Fault α :=
  match read text.toList with
  | .error fault => .error fault
  | .ok (value, rest) => if (skipBlanks rest).isEmpty then .ok value else .error .malformed

end Disassembly.Json
