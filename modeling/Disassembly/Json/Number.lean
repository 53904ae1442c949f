import Disassembly.Json.Text
/-!
Numbers in written JSON. Only natural numbers of one 64-bit word keep their value; any other
number is known to be one and nothing more, except that a number beyond the range of doubles is
refused as malformed.
-/
namespace Disassembly.Json

inductive Number where
  | natural (n : Nat)
  | other
  deriving DecidableEq, Repr

/-- The nearest number with a significand of 53 bits, ties going to the even one. -/
def roundToDouble (n : Nat) : Nat :=
  let shift := n.log2 - 52
  let quotient := n >>> shift
  let rest := n - (quotient <<< shift)
  let half := (1 <<< shift) / 2
  if shift = 0 then n
  else if half < rest ∨ (rest = half ∧ quotient % 2 = 1) then (quotient + 1) <<< shift
  else quotient <<< shift

/-- Whether `significand * 10 ^ exponent` is beyond the range of doubles, significand and power
being rounded first and their product last. -/
def exceedsDouble (significand : Nat) (exponent : Int) : Bool :=
  match exponent with
  | .ofNat e =>
    if significand = 0 then false
    else if 308 < e then true
    else decide (Nat.pow 2 1024 - Nat.pow 2 970 ≤
      roundToDouble significand * roundToDouble (Nat.pow 10 e))
  | .negSucc _ => false

/-- Continues a significand with digits for as long as it stays a 64-bit word, and tells how many
digits were taken. -/
def accumulate (significand : Nat) : List Char → Nat × Nat
  | [] => (significand, 0)
  | c :: rest =>
    let next := significand * 10 + (c.toNat - '0'.toNat)
    if next < UInt64.size then
      let (result, taken) := accumulate next rest
      (result, taken + 1)
    else (significand, 0)

def decimal (significand : Nat) (exponent : Int) (rest : List Char) : Reading Number :=
  if exceedsDouble significand exponent then .error .malformed else .ok (.other, rest)

def maxExponent : Nat := UInt32.size / 2 - 1

/-- The exponent of a number, read behind its letter. One too large to be kept makes the number
zero or refuses it. -/
def readExponent (significand : Nat) (exponent : Int) (text : List Char) : Reading Number :=
  let (negative, text) := match text with
    | '+' :: rest => (false, rest)
    | '-' :: rest => (true, rest)
    | text => (false, text)
  let digits := text.takeWhile Char.isDigit
  let rest := text.dropWhile Char.isDigit
  match text with
  | [] => .error .ended
  | c :: _ =>
    if !c.isDigit then .error .malformed
    else
      let value := Nat.ofDigitChars 10 digits 0
      if maxExponent < value then
        if significand ≠ 0 ∧ !negative then .error .malformed else .ok (.other, rest)
      else decimal significand (if negative then exponent - value else exponent + value) rest

def readTail (significand : Nat) (exponent : Int) (text : List Char) : Reading Number :=
  match text with
  | 'e' :: rest | 'E' :: rest => readExponent significand exponent rest
  | text => decimal significand exponent text

def readFraction (significand : Nat) (exponent : Int) (text : List Char) : Reading Number :=
  let digits := text.takeWhile Char.isDigit
  let rest := text.dropWhile Char.isDigit
  match text with
  | [] => .error .ended
  | _ =>
    if digits.isEmpty then .error .malformed
    else
      let (significand, taken) := accumulate significand digits
      readTail significand (exponent - taken) rest

/-- A number without its sign. A negative one is never natural, not even zero. -/
def readUnsignedNumber (negative : Bool) (text : List Char) : Reading Number :=
  let digits := text.takeWhile Char.isDigit
  let rest := text.dropWhile Char.isDigit
  match text with
  | [] => .error .ended
  | c :: _ =>
    if digits.isEmpty then .error .malformed
    else if c = '0' ∧ digits.length ≠ 1 then .error .malformed
    else
      let (significand, taken) := accumulate 0 digits
      let dropped := digits.length - taken
      match rest with
      | '.' :: rest => readFraction significand dropped rest
      | 'e' :: rest | 'E' :: rest => readExponent significand dropped rest
      | rest =>
        if dropped ≠ 0 then decimal significand dropped rest
        else .ok (if negative then .other else .natural significand, rest)

def readNumber : List Char → Reading Number
  | '-' :: rest => readUnsignedNumber true rest
  | text => readUnsignedNumber false text

def skipExponent (text : List Char) : Except Fault (List Char) :=
  let text := match text with
    | '+' :: rest | '-' :: rest => rest
    | text => text
  if (text.takeWhile Char.isDigit).isEmpty then .error .malformed
  else .ok (text.dropWhile Char.isDigit)

/-- A number that does not matter, without its sign. Here an early end is as malformed as
anything else. -/
def skipNumber (text : List Char) : Except Fault (List Char) :=
  let digits := text.takeWhile Char.isDigit
  if digits.isEmpty ∨ (text.head? = some '0' ∧ digits.length ≠ 1) then .error .malformed
  else
    match text.dropWhile Char.isDigit with
    | '.' :: rest =>
      if (rest.takeWhile Char.isDigit).isEmpty then .error .malformed
      else
        match rest.dropWhile Char.isDigit with
        | 'e' :: rest | 'E' :: rest => skipExponent rest
        | rest => .ok rest
    | 'e' :: rest | 'E' :: rest => skipExponent rest
    | rest => .ok rest

end Disassembly.Json
