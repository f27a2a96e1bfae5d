import Base128.Text.Extending
import Base128.Text.Unprintable

/-! # Quoted text

What has no shape of its own is escaped between quotes. A mark that is drawn onto the
character before it is escaped in a text, and stands as it is where it is alone.
-/

namespace Base128.Text

def escapeCode (c : Char) : List Char :=
  ['\\', 'u', '\x7b'] ++ Nat.toDigits 16 c.toNat ++ ['\x7d']

/-- How `c` is written between two characters `quote`. -/
def escaped (quote c : Char) : List Char :=
  if c = '\x00' then ['\\', '0']
  else if c = '\t' then ['\\', 't']
  else if c = '\r' then ['\\', 'r']
  else if c = '\n' then ['\\', 'n']
  else if c = '\\' || c = quote then ['\\', c]
  else if isUnprintable c then escapeCode c
  else [c]

def quotedText (text : String) : String :=
  let inner := text.toList.flatMap fun c => if isExtending c then escapeCode c else escaped '"' c
  String.ofList ('"' :: (inner ++ ['"']))

def quotedChar (c : Char) : String := String.ofList ('\'' :: (escaped '\'' c ++ ['\'']))

end Base128.Text
