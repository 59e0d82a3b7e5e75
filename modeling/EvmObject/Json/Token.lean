import EvmObject.Json.Number

/-!
# Tokens of JSON

The text is cut into brackets, separators, strings and literals, with blanks between them dropped.
A string must not hold control characters or halves of surrogate pairs.
-/

namespace EvmObject.Json

/-- A piece of a JSON text. -/
inductive Token where
  | openArray
  | closeArray
  | openObject
  | closeObject
  | comma
  | colon
  | null
  | bool (value : Bool)
  | number (value : Number)
  | string (value : String)
  deriving DecidableEq, Repr

namespace Token

/-! ## Strings -/

/-- The value of a hexadecimal digit. -/
def hexValue? (c : Char) : Option Nat :=
  if '0' ≤ c ∧ c ≤ '9' then some (c.toNat - 0x30)
  else if 'a' ≤ c ∧ c ≤ 'f' then some (c.toNat - 0x57)
  else if 'A' ≤ c ∧ c ≤ 'F' then some (c.toNat - 0x37)
  else none

/-- The number that four hexadecimal digits write. -/
def quad? (a b c d : Char) : Option Nat := do
  return (((← hexValue? a) * 16 + (← hexValue? b)) * 16 + (← hexValue? c)) * 16 + (← hexValue? d)

/-- The character that a letter behind a backslash stands for. -/
def escape? : Char → Option Char
  | '"' => some '"'
  | '\\' => some '\\'
  | '/' => some '/'
  | 'b' => some (Char.ofNat 0x08)
  | 'f' => some (Char.ofNat 0x0C)
  | 'n' => some '\n'
  | 'r' => some '\r'
  | 't' => some '\t'
  | _ => none

/-- The first half of a surrogate pair. -/
def isHighSurrogate (unit : Nat) : Bool := 0xD800 ≤ unit && unit ≤ 0xDBFF

/-- The second half of a surrogate pair. -/
def isLowSurrogate (unit : Nat) : Bool := 0xDC00 ≤ unit && unit ≤ 0xDFFF

/-- The code point of a surrogate pair. -/
def pairValue (high low : Nat) : Nat := 0x10000 + (high - 0xD800) * 0x400 + (low - 0xDC00)

/-- Reads a string up to its closing mark and gives the text behind it. The characters read before
stand last first in `done`. -/
def stringOnto : List Char → List Char → Option (String × List Char)
  | [], _ => none
  | '"' :: rest, done => some (String.ofList done.reverse, rest)
  | '\\' :: 'u' :: a :: b :: c :: d :: rest, done =>
    match quad? a b c d with
    | none => none
    | some unit =>
      if isLowSurrogate unit then none
      else if isHighSurrogate unit then
        match rest with
        | '\\' :: 'u' :: e :: f :: g :: h :: rest =>
          match quad? e f g h with
          | none => none
          | some low =>
            if isLowSurrogate low then stringOnto rest (Char.ofNat (pairValue unit low) :: done)
            else none
        | _ => none
      else stringOnto rest (Char.ofNat unit :: done)
  | '\\' :: letter :: rest, done =>
    match escape? letter with
    | none => none
    | some c => stringOnto rest (c :: done)
  | c :: rest, done =>
    if c = '\\' ∨ c.toNat < 0x20 then none else stringOnto rest (c :: done)

/-! ## Numbers -/

/-- Cuts a text behind its leading digits. -/
def spanDigits (text : List Char) : List Char × List Char :=
  text.span Char.isDigit

/-- Reads digits, at least one. -/
def digits? (text : List Char) : Option (List Char × List Char) :=
  let (digits, rest) := spanDigits text
  if digits.isEmpty then none else some (digits, rest)

/-- Reads a fraction, if one follows. -/
def fraction? : List Char → Option (Option (List Char) × List Char)
  | '.' :: rest => (digits? rest).map fun (digits, rest) => (some digits, rest)
  | text => some (none, text)

/-- Reads an exponent behind its letter. -/
def exponentDigits? : List Char → Option (Int × List Char)
  | '-' :: rest => (digits? rest).map fun (digits, rest) => (-(Number.ofDigits digits : Int), rest)
  | '+' :: rest => (digits? rest).map fun (digits, rest) => (Number.ofDigits digits, rest)
  | text => (digits? text).map fun (digits, rest) => (Number.ofDigits digits, rest)

/-- Reads an exponent, if one follows. -/
def exponent? : List Char → Option (Option Int × List Char)
  | 'e' :: rest => (exponentDigits? rest).map fun (value, rest) => (some value, rest)
  | 'E' :: rest => (exponentDigits? rest).map fun (value, rest) => (some value, rest)
  | text => some (none, text)

/-- Reads a number without its sign. A leading zero stands alone. -/
def unsigned? (isNegative : Bool) (text : List Char) : Option (Number × List Char) := do
  let (whole, rest) ← digits? text
  if whole.head? == some '0' && 1 < whole.length then failure
  let (fraction?, rest) ← fraction? rest
  let (exponent?, rest) ← exponent? rest
  let number ← Number.ofParts? isNegative whole fraction? exponent?
  return (number, rest)

/-- Reads a number. -/
def number? : List Char → Option (Number × List Char)
  | '-' :: rest => unsigned? true rest
  | text => unsigned? false text

/-! ## Cutting a text -/

/-- Blanks between tokens. -/
def isBlank (c : Char) : Bool := c == ' ' || c == '\n' || c == '\t' || c == '\r'

/-- Reads the token at the start of a text that is not blank there. -/
def first? : List Char → Option (Token × List Char)
  | '[' :: rest => some (openArray, rest)
  | ']' :: rest => some (closeArray, rest)
  | '\x7b' :: rest => some (openObject, rest)
  | '\x7d' :: rest => some (closeObject, rest)
  | ',' :: rest => some (comma, rest)
  | ':' :: rest => some (colon, rest)
  | 'n' :: 'u' :: 'l' :: 'l' :: rest => some (null, rest)
  | 't' :: 'r' :: 'u' :: 'e' :: rest => some (bool true, rest)
  | 'f' :: 'a' :: 'l' :: 's' :: 'e' :: rest => some (bool false, rest)
  | '"' :: rest => (stringOnto rest []).map fun (value, rest) => (string value, rest)
  | text => (number? text).map fun (value, rest) => (number value, rest)

/-- Cuts a text into tokens, of which those before stand last first in `done`. Each token takes a
character at least, so as many rounds as there are characters are enough. -/
def cutOnto : Nat → List Char → List Token → Option (List Token)
  | rounds, text, done =>
    match text.dropWhile isBlank, rounds with
    | [], _ => some done.reverse
    | _, 0 => none
    | text, rounds + 1 =>
      match first? text with
      | none => none
      | some (token, rest) => cutOnto rounds rest (token :: done)

/-- Cuts a text into tokens. -/
def cut (text : List Char) : Option (List Token) := cutOnto text.length text []

end Token

end EvmObject.Json
