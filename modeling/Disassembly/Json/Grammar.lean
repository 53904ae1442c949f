import Disassembly.Json.Text
/-!
The grammar of JSON, told apart from any reader: what the text of a value may look like, and which
characters a string stands for. Blanks may stand around every value and every name. A string may
hold surrogates that do not pair up; it is well formed then and stands for nothing.
-/
namespace Disassembly.Json

structure Blanks where
  text : List Char
  blank : ∀ c ∈ text, isBlank c = true

def Blanks.none : Blanks := ⟨[], List.forall_mem_nil _⟩

inductive Hex4 : List Char → Nat → Prop
  | intro {a b c d : Char} {i j k l : Nat} (ha : Numeral.digit? 16 a = some i)
      (hb : Numeral.digit? 16 b = some j) (hc : Numeral.digit? 16 c = some k)
      (hd : Numeral.digit? 16 d = some l) : Hex4 [a, b, c, d] (((i * 16 + j) * 16 + k) * 16 + l)

inductive IsString : List Char → Prop
  | nil : IsString []
  | plain {c : Char} {text : List Char} (hquote : c ≠ '"') (hbackslash : c ≠ '\\')
      (hcontrol : ¬ c.toNat < 0x20) (htext : IsString text) : IsString (c :: text)
  | escape {c d : Char} {text : List Char} (hc : shortEscape? c = some d)
      (htext : IsString text) : IsString ('\\' :: c :: text)
  | unit {digits text : List Char} {n : Nat} (hdigits : Hex4 digits n) (htext : IsString text) :
      IsString ('\\' :: 'u' :: (digits ++ text))

inductive Spells : List Char → List Char → Prop
  | nil : Spells [] []
  | plain {c : Char} {text string : List Char} (hquote : c ≠ '"') (hbackslash : c ≠ '\\')
      (hcontrol : ¬ c.toNat < 0x20) (htext : Spells text string) :
      Spells (c :: text) (c :: string)
  | escape {c d : Char} {text string : List Char} (hc : shortEscape? c = some d)
      (htext : Spells text string) : Spells ('\\' :: c :: text) (d :: string)
  | unit {digits text string : List Char} {n : Nat} (hdigits : Hex4 digits n)
      (hleading : isLeadingSurrogate n = false) (htrailing : isTrailingSurrogate n = false)
      (htext : Spells text string) :
      Spells ('\\' :: 'u' :: (digits ++ text)) (.ofNat n :: string)
  | pair {digits digits' text string : List Char} {n m : Nat} (hdigits : Hex4 digits n)
      (hleading : isLeadingSurrogate n = true) (hdigits' : Hex4 digits' m)
      (htrailing : isTrailingSurrogate m = true) (htext : Spells text string) :
      Spells ('\\' :: 'u' :: (digits ++ '\\' :: 'u' :: (digits' ++ text)))
        (joinSurrogates n m :: string)

def AreDigits (text : List Char) : Prop := text ≠ [] ∧ ∀ c ∈ text, c.isDigit = true

/-- A sign, digits without a leading zero, a fraction and an exponent, of which only the digits
are always there. -/
inductive IsNumber : List Char → Prop
  | intro {sign whole fraction exponent : List Char} (hsign : sign = [] ∨ sign = ['-'])
      (hwhole : AreDigits whole) (hzero : whole.head? = some '0' → whole = ['0'])
      (hfraction : fraction = [] ∨ ∃ digits, AreDigits digits ∧ fraction = '.' :: digits)
      (hexponent : exponent = [] ∨ ∃ letter sign digits, (letter = 'e' ∨ letter = 'E') ∧
        (sign = [] ∨ sign = ['+'] ∨ sign = ['-']) ∧ AreDigits digits ∧
        exponent = letter :: (sign ++ digits)) :
      IsNumber (sign ++ (whole ++ (fraction ++ exponent)))

/-- An element of an array as it stands between the commas. -/
structure Element where
  before : Blanks
  value : List Char
  after : Blanks

def Element.text (element : Element) : List Char :=
  element.before.text ++ (element.value ++ element.after.text)

structure Member where
  before : Blanks
  name : List Char
  behind : Blanks
  between : Blanks
  value : List Char
  after : Blanks

def Member.tail (member : Member) : List Char :=
  member.behind.text ++ ':' :: (member.between.text ++ member.value)

def Member.item (member : Member) : List Char := '"' :: (member.name ++ '"' :: member.tail)

def Member.text (member : Member) : List Char :=
  member.before.text ++ (member.item ++ member.after.text)

def arrayText (elements : List Element) (inside : Blanks) : List Char :=
  '[' :: ([','].intercalate (elements.map Element.text) ++ (inside.text ++ [']']))

def objectText (members : List Member) (inside : Blanks) : List Char :=
  '\x7b' :: ([','].intercalate (members.map Member.text) ++ (inside.text ++ ['\x7d']))

inductive IsValue : List Char → Prop
  | null : IsValue ['n', 'u', 'l', 'l']
  | true : IsValue ['t', 'r', 'u', 'e']
  | false : IsValue ['f', 'a', 'l', 's', 'e']
  | number {text : List Char} (htext : IsNumber text) : IsValue text
  | string {text : List Char} (htext : IsString text) : IsValue ('"' :: (text ++ ['"']))
  | array {elements : List Element} {inside : Blanks}
      (helements : ∀ element ∈ elements, IsValue element.value) :
      IsValue (arrayText elements inside)
  | object {members : List Member} {inside : Blanks}
      (hnames : ∀ member ∈ members, IsString member.name)
      (hvalues : ∀ member ∈ members, IsValue member.value) : IsValue (objectText members inside)

def ObjectText (members : List Member) (text : List Char) : Prop :=
  ∃ before inside after : Blanks, text = before.text ++ (objectText members inside ++ after.text)

end Disassembly.Json
