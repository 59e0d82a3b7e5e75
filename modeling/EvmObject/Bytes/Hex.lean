import EvmObject.Bytes.BigEndian
import EvmObject.Text.Blank
import EvmObject.Text.Quoted

/-!
# Bytes in hexadecimal

Two digits per byte, the high half first. Writing uses lower case; reading takes both cases and
reports the first thing that is wrong: an odd number of digits, else the first byte that is no
digit. Main statements: `nibble?_digit`, every digit reads back, and `pairsOnto_encodeDigits`,
whatever is written reads back.
-/

namespace EvmObject.Hex

/-! ## Writing -/

/-- The digit of a number below sixteen, as an ASCII code. -/
def digit (value : Nat) : UInt8 :=
  if value < 10 then UInt8.ofNat (0x30 + value) else UInt8.ofNat (0x57 + value)

/-- The digits of a byte string, as ASCII codes. -/
def encodeDigits (bytes : Bytes) : Bytes :=
  bytes.flatMap fun byte => [digit (byte.toNat / 16), digit (byte.toNat % 16)]

/-- The digits of a byte string. -/
def encode (bytes : Bytes) : String :=
  String.ofList ((encodeDigits bytes).map fun code => Char.ofNat code.toNat)

/-! ## Reading -/

/-- Why a text is not hexadecimal. -/
inductive Error where
  /-- A digit has no partner. -/
  | oddLength
  /-- A byte is no digit: the character with that code, and the offset of the byte. -/
  | invalid (char : Char) (position : Nat)
  deriving DecidableEq, Repr

/-- The text of an error. -/
def Error.message : Error → String
  | .oddLength => "odd number of digits"
  | .invalid char position => s!"invalid character {Text.quotedChar char} at position {position}"

/-- The value of a digit in either case. -/
def nibble? (code : UInt8) : Option Nat :=
  if 0x30 ≤ code ∧ code ≤ 0x39 then some (code.toNat - 0x30)
  else if 0x61 ≤ code ∧ code ≤ 0x66 then some (code.toNat - 0x57)
  else if 0x41 ≤ code ∧ code ≤ 0x46 then some (code.toNat - 0x37)
  else none

/-- The error of a byte that is no digit. -/
def invalidAt (code : UInt8) (position : Nat) : Error :=
  .invalid (Char.ofNat code.toNat) position

/-- Reads pairs of digits from `position` on; the bytes read before stand last first in `done`. -/
def pairsOnto : Bytes → Nat → Bytes → Except Error Bytes
  | [], _, done => .ok done.reverse
  | [_], _, _ => .error .oddLength
  | hi :: lo :: rest, position, done =>
    match nibble? hi, nibble? lo with
    | none, _ => .error (invalidAt hi position)
    | _, none => .error (invalidAt lo (position + 1))
    | some high, some low => pairsOnto rest (position + 2) (UInt8.ofNat (high * 16 + low) :: done)

/-- Drops one marker `0x` or `0X`. -/
def dropMarker : Bytes → Bytes
  | 0x30 :: 0x78 :: rest => rest
  | 0x30 :: 0x58 :: rest => rest
  | text => text

/-- Reads digits behind an optional marker. An odd length is reported before any other error. -/
def decodeDigits (text : Bytes) : Except Error Bytes :=
  let digits := dropMarker text
  if digits.length % 2 = 1 then .error .oddLength else pairsOnto digits 0 []

/-- The UTF-8 form of a text. -/
def utf8 (text : List Char) : Bytes :=
  text.flatMap String.utf8EncodeChar

/-- Reads a text of digits behind an optional marker. -/
def decode (text : List Char) : Except Error Bytes :=
  decodeDigits (utf8 text)

/-- Drops one marker `0x`; only the lower-case letter counts. -/
def dropLowerMarker : List Char → List Char
  | '0' :: 'x' :: rest => rest
  | text => text

/-- Reads what a person typed: blanks at both ends and one more marker are dropped first. -/
def read (text : List Char) : Except Error Bytes :=
  decode (dropLowerMarker (Text.trimBlanks text))

/-! ## Reading back -/

/-- Every digit reads back. -/
theorem nibble?_digit {value : Nat} (small : value < 16) : nibble? (digit value) = some value := by
  have all : ∀ n : Fin 16, nibble? (digit n.val) = some n.val := by decide
  exact all ⟨value, small⟩

/-- Written bytes read back behind those read before. -/
theorem pairsOnto_encodeDigits (bytes : Bytes) (position : Nat) (done : Bytes) :
    pairsOnto (encodeDigits bytes) position done = .ok (done.reverse ++ bytes) := by
  induction bytes generalizing position done with
  | nil => simp [encodeDigits, pairsOnto]
  | cons byte rest ih =>
    have bound := byte.toNat_lt
    have high : byte.toNat / 16 < 16 := by omega
    have low : byte.toNat % 16 < 16 := by omega
    have whole : UInt8.ofNat (byte.toNat / 16 * 16 + byte.toNat % 16) = byte := by
      apply UInt8.toNat_inj.mp
      simp only [UInt8.toNat_ofNat']
      omega
    have tail := ih (position + 2) (byte :: done)
    simp only [encodeDigits] at tail
    simp [encodeDigits, pairsOnto, nibble?_digit high, nibble?_digit low, whole, tail]

end EvmObject.Hex
