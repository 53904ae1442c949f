import Disassembly.Json.Number
/-!
Skipping a value that does not matter. Nesting of any depth is followed with a list of the
brackets still open, so a skipped value may be nested deeper than any other.
-/
namespace Disassembly.Json

inductive Bracket where
  | array
  | object
  deriving DecidableEq, Repr

def Bracket.closing : Bracket → Char
  | array => ']'
  | object => '\x7d'

/-- Where a skipping stands: before a value, right behind an opening bracket, or behind a
value. -/
inductive Place where
  | before
  | inside (bracket : Bracket)
  | behind
  deriving DecidableEq, Repr

def skipName (text : List Char) : Except Fault (List Char) :=
  match skipBlanks text with
  | [] => .error .ended
  | '"' :: rest =>
    match skipString rest with
    | .error fault => .error fault
    | .ok rest =>
      match skipBlanks rest with
      | [] => .error .ended
      | ':' :: rest => .ok rest
      | _ => .error .malformed
  | _ => .error .malformed

def skipLead (bracket : Bracket) (text : List Char) : Except Fault (List Char) :=
  match bracket with
  | .array => .ok text
  | .object => skipName text

def skipScalar? (text : List Char) : Option (Except Fault (List Char)) :=
  match text with
  | [] => some (.error .ended)
  | '[' :: _ => none
  | '\x7b' :: _ => none
  | 'n' :: rest => some (expect "ull".toList rest)
  | 't' :: rest => some (expect "rue".toList rest)
  | 'f' :: rest => some (expect "alse".toList rest)
  | '"' :: rest => some (skipString rest)
  | '-' :: rest => some (skipNumber rest)
  | c :: rest => if c.isDigit then some (skipNumber (c :: rest)) else some (.error .malformed)

/-- Skips on from a place inside the given open brackets. Every step but one at most per bracket
uses up a character, which bounds the steps. -/
def skipFrom : Nat → Place → List Bracket → List Char → Except Fault (List Char)
  | 0, _, _, _ => .error .ended
  | steps + 1, .before, opened, text =>
    match skipBlanks text with
    | '[' :: rest => skipFrom steps (.inside .array) opened rest
    | '\x7b' :: rest => skipFrom steps (.inside .object) opened rest
    | text =>
      match skipScalar? text with
      | some (.ok rest) => skipFrom steps .behind opened rest
      | some (.error fault) => .error fault
      | none => .error .malformed
  | steps + 1, .inside bracket, opened, text =>
    match skipBlanks text with
    | [] => .error .ended
    | c :: rest =>
      if c = bracket.closing then skipFrom steps .behind opened rest
      else
        match skipLead bracket (c :: rest) with
        | .ok rest => skipFrom steps .before (bracket :: opened) rest
        | .error fault => .error fault
  | _ + 1, .behind, [], text => .ok text
  | steps + 1, .behind, bracket :: opened, text =>
    match skipBlanks text with
    | [] => .error .ended
    | c :: rest =>
      if c = bracket.closing then skipFrom steps .behind opened rest
      else if c = ',' then
        match skipLead bracket rest with
        | .ok rest => skipFrom steps .before (bracket :: opened) rest
        | .error fault => .error fault
      else .error .malformed

def skipValue (text : List Char) : Except Fault (List Char) :=
  skipFrom (3 * text.length + 3) .before [] text

end Disassembly.Json
