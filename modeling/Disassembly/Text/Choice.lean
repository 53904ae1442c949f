/-!
Choosing one of several named alternatives, with or without regard to the case of ASCII letters.
-/
namespace Disassembly.Text

def lowerAscii (text : String) : List Char := text.toList.map Char.toLower

def choose? (ignoreCase : Bool) (alternatives : List (String × α)) (name : String) : Option α :=
  (alternatives.find? fun alternative =>
    if ignoreCase then lowerAscii alternative.1 == lowerAscii name
    else alternative.1 == name).map Prod.snd

def unknownChoice (name : String) : String := "invalid variant: " ++ name

end Disassembly.Text
