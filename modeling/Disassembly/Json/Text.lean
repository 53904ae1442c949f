import Disassembly.Text.Numeral
import Disassembly.Text.Utf8
/-!
The smallest pieces of written JSON: blanks, words and strings. A text is read from left to right
and the first fault ends the reading, so each reader returns either what it read with the text
behind it, or the fault.
-/
namespace Disassembly.Json

inductive Fault where
  | malformed
  | ended
  /-- The text so far is JSON, but not of the wanted form. -/
  | mismatch
  deriving DecidableEq, Repr

def Fault.name : Fault → String
  | malformed => "Syntax"
  | ended => "Eof"
  | mismatch => "Data"

abbrev Reading (α : Type) := Except Fault (α × List Char)

def isBlank (c : Char) : Bool := c == ' ' || c == '\n' || c == '\t' || c == '\r'

def skipBlanks (text : List Char) : List Char := text.dropWhile isBlank

def expect : List Char → List Char → Except Fault (List Char)
  | [], text => .ok text
  | _ :: _, [] => .error .ended
  | c :: word, d :: text => if c = d then expect word text else .error .malformed

/-- Four hexadecimal digits. With fewer than four bytes left the text ends too early, whatever
they are. -/
def readHex4 (text : List Char) : Reading Nat :=
  match text with
  | a :: b :: c :: d :: rest =>
    match Numeral.digit? 16 a, Numeral.digit? 16 b, Numeral.digit? 16 c, Numeral.digit? 16 d with
    | some a, some b, some c, some d => .ok (((a * 16 + b) * 16 + c) * 16 + d, rest)
    | _, _, _, _ => .error .malformed
  | text => if Utf8.byteSize text < 4 then .error .ended else .error .malformed

def isLeadingSurrogate (n : Nat) : Bool := 0xD800 ≤ n && n ≤ 0xDBFF

def isTrailingSurrogate (n : Nat) : Bool := 0xDC00 ≤ n && n ≤ 0xDFFF

def joinSurrogates (leading trailing : Nat) : Char :=
  .ofNat ((leading - 0xD800) * 0x400 + (trailing - 0xDC00) + 0x10000)

/-- The character of a `\u` escape. A leading surrogate needs a second escape with a trailing one
right behind it. -/
def readCodePoint (text : List Char) : Reading Char :=
  match readHex4 text with
  | .error fault => .error fault
  | .ok (n, rest) =>
    if isTrailingSurrogate n then .error .malformed
    else if isLeadingSurrogate n then
      match expect ['\\', 'u'] rest with
      | .error fault => .error fault
      | .ok rest =>
        match readHex4 rest with
        | .error fault => .error fault
        | .ok (m, rest) =>
          if isTrailingSurrogate m then
            .ok (joinSurrogates n m, rest)
          else .error .malformed
    else .ok (.ofNat n, rest)

def shortEscape? : Char → Option Char
  | '"' => some '"'
  | '\\' => some '\\'
  | '/' => some '/'
  | 'b' => some '\x08'
  | 'f' => some '\x0c'
  | 'n' => some '\n'
  | 'r' => some '\r'
  | 't' => some '\t'
  | _ => none

def readEscape : List Char → Reading Char
  | [] => .error .ended
  | c :: rest =>
    match shortEscape? c with
    | some escaped => .ok (escaped, rest)
    | none => if c = 'u' then readCodePoint rest else .error .malformed

theorem length_of_expect {word text rest : List Char} (h : expect word text = .ok rest) :
    rest.length ≤ text.length := by
  induction word generalizing text with
  | nil => cases h; exact Nat.le_refl _
  | cons c word ih =>
    cases text with
    | nil => cases h
    | cons d text =>
      rw [expect] at h
      split at h
      · exact Nat.le_succ_of_le (ih h)
      · cases h

theorem length_of_readHex4 {text rest : List Char} {n : Nat} (h : readHex4 text = .ok (n, rest)) :
    rest.length < text.length := by
  unfold readHex4 at h
  split at h
  · split at h
    · cases h; simp only [List.length_cons]; omega
    · cases h
  · split at h <;> cases h

theorem length_of_readCodePoint {text rest : List Char} {c : Char}
    (h : readCodePoint text = .ok (c, rest)) : rest.length < text.length := by
  unfold readCodePoint at h
  split at h
  · cases h
  · rename_i n rest₁ h₁
    have l₁ := length_of_readHex4 h₁
    split at h
    · cases h
    · split at h
      · split at h
        · cases h
        · rename_i rest₂ h₂
          have l₂ := length_of_expect h₂
          split at h
          · cases h
          · rename_i m rest₃ h₃
            have l₃ := length_of_readHex4 h₃
            split at h
            · simp only [Except.ok.injEq, Prod.mk.injEq] at h
              rw [← h.2]
              omega
            · cases h
      · simp only [Except.ok.injEq, Prod.mk.injEq] at h
        rw [← h.2]
        exact l₁

theorem length_of_readEscape {text rest : List Char} {c : Char}
    (h : readEscape text = .ok (c, rest)) : rest.length < text.length := by
  cases text with
  | nil => cases h
  | cons d text =>
    unfold readEscape at h
    cases hs : shortEscape? d with
    | some escaped =>
      simp only [hs, Except.ok.injEq, Prod.mk.injEq] at h
      rw [← h.2]
      exact Nat.lt_succ_self _
    | none =>
      simp only [hs] at h
      by_cases hu : d = 'u'
      · rw [if_pos hu] at h
        exact Nat.lt_succ_of_lt (length_of_readCodePoint h)
      · rw [if_neg hu] at h
        cases h

def readString (text : List Char) : Reading (List Char) :=
  match text with
  | [] => .error .ended
  | c :: rest =>
    if c = '"' then .ok ([], rest)
    else if c = '\\' then
      match h : readEscape rest with
      | .error fault => .error fault
      | .ok (escaped, behind) =>
        have := length_of_readEscape h
        match readString behind with
        | .error fault => .error fault
        | .ok (string, behind) => .ok (escaped :: string, behind)
    else if c.toNat < 0x20 then .error .malformed
    else
      match readString rest with
      | .error fault => .error fault
      | .ok (string, behind) => .ok (c :: string, behind)
termination_by text.length
decreasing_by all_goals simp only [List.length_cons]; omega

/-- The end of a string whose content does not matter, and whose surrogates need not pair up. -/
def skipString (text : List Char) : Except Fault (List Char) :=
  match text with
  | [] => .error .ended
  | '"' :: rest => .ok rest
  | '\\' :: 'u' :: rest =>
    match h : readHex4 rest with
    | .error fault => .error fault
    | .ok (_, behind) =>
      have := length_of_readHex4 h
      skipString behind
  | ['\\'] => .error .ended
  | '\\' :: c :: rest => if (shortEscape? c).isSome then skipString rest else .error .malformed
  | c :: rest => if c.toNat < 0x20 then .error .malformed else skipString rest
termination_by text.length
decreasing_by all_goals simp only [List.length_cons]; omega

end Disassembly.Json
