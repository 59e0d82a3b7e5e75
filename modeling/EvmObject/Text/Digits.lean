/-!
# Numbers as text

Listings, errors and records write numbers in decimal or hexadecimal, sometimes filled up to a
fixed width. A number that needs more digits than the width is written in full.
-/

namespace EvmObject.Text

/-- Hexadecimal digits in lower case, without a sign or a marker; zero is one digit. -/
def hex (n : Nat) : String :=
  String.ofList (Nat.toDigits 16 n)

/-- Hexadecimal digits in upper case. -/
def hexUpper (n : Nat) : String :=
  String.ofList ((Nat.toDigits 16 n).map Char.toUpper)

/-- Fills a text on the left with copies of `fill` until it has `width` characters. -/
def padLeft (width : Nat) (fill : Char) (text : String) : String :=
  String.ofList (List.leftpad width fill text.toList)

/-- Lower-case hexadecimal digits filled up with zeros. -/
def hexWide (width n : Nat) : String := padLeft width '0' (hex n)

/-- Two upper-case hexadecimal digits of a byte. -/
def byteUpper (byte : UInt8) : String := padLeft 2 '0' (hexUpper byte.toNat)

/-- Two lower-case hexadecimal digits of a byte. -/
def byteLower (byte : UInt8) : String := hexWide 2 byte.toNat

/-- A signed number in decimal that always shows its sign; zero is positive. -/
def signedDecimal (n : Int) : String :=
  if n < 0 then s!"-{n.natAbs}" else s!"+{n.natAbs}"

/-- The 64-bit two's complement pattern of a number in lower-case hexadecimal digits, filled up with
zeros. -/
def hexPattern (width : Nat) (n : Int) : String :=
  hexWide width (BitVec.ofInt 64 n).toNat

end EvmObject.Text
