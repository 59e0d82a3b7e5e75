import EvmObject.Text.Digits
import EvmObject.Text.Shown

/-!
# Quoted text

A text between quotes, or a character between apostrophes, with the characters that would not be
readable written as escapes: the mark itself and the backslash behind a backslash, five controls by
a letter, and all others that are not shown by their code point in braces.
-/

namespace EvmObject.Text

/-- The mark around a quoted text. -/
def quotationMark : Char := '"'

/-- The mark around a quoted character. -/
def apostrophe : Char := Char.ofNat 39

/-- The code point in hexadecimal between braces. -/
def codePoint (c : Char) : String :=
  s!"\\u\x7b{hex c.toNat}\x7d"

/-- How a character is written between two copies of `mark`. -/
def escaped (mark c : Char) : String :=
  if c == Char.ofNat 0 then "\\0"
  else if c == '\t' then "\\t"
  else if c == '\r' then "\\r"
  else if c == '\n' then "\\n"
  else if c == '\\' || c == mark then "\\".push c
  else if isShown c then c.toString
  else codePoint c

/-- A text between quotation marks. -/
def quoted (text : String) : String :=
  let inner := String.join (text.toList.map (escaped quotationMark))
  (quotationMark.toString ++ inner).push quotationMark

/-- A character between apostrophes. -/
def quotedChar (c : Char) : String :=
  (apostrophe.toString ++ escaped apostrophe c).push apostrophe

end EvmObject.Text
