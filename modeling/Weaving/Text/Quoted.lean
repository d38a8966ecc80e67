import Weaving.Text.GraphemeExtend
import Weaving.Text.Printable

/-!
# Quoted text

A text in double quotes on one line. Six characters have a short escape; a character that would
not show as itself is written by its code point, `\u` and then lower-case hexadecimal digits in
braces, without leading zeros. All other characters, a single quote among them, stand for
themselves.
-/

namespace Weaving.Text.Quoted

/-- The code point of `c` in lower-case hexadecimal, escaped. -/
def codePoint (c : Char) : List Char :=
  ['\\', 'u', '\x7b'] ++ Nat.toDigits 16 c.toNat ++ ['\x7d']

/-- The character is drawn onto the one before it. The two halfwidth sound marks extend a grapheme
too, but they are letters with a place of their own. -/
def attaches (c : Char) : Bool :=
  isGraphemeExtend c && c != '\uff9e' && c != '\uff9f'

/-- The character shows as itself between the quotes: it is printable and does not attach to the
character before it. -/
def showsAsItself (c : Char) : Bool :=
  isPrintable c && !attaches c

/-- What is written for one character. -/
def encodeChar (c : Char) : List Char :=
  if c = '\x00' then ['\\', '0']
  else if c = '\t' then ['\\', 't']
  else if c = '\r' then ['\\', 'r']
  else if c = '\n' then ['\\', 'n']
  else if c = '"' then ['\\', '"']
  else if c = '\\' then ['\\', '\\']
  else if showsAsItself c then [c]
  else codePoint c

/-- The text with every character encoded, between double quotes. -/
def quote (s : String) : String :=
  String.ofList ('"' :: s.toList.flatMap encodeChar ++ ['"'])

end Weaving.Text.Quoted
