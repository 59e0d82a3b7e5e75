/-!
# Numbers in JSON

A number is kept exactly if it is written without sign, fraction and exponent and fits in 64 bits;
of all others only the syntax and the range are checked. Out of range is what rounds beyond the
largest double-precision number when the leading digits that fit in 64 bits are scaled by a power of
ten, each of the two rounded to a double first.
-/

namespace EvmObject.Json

/-- What is kept of a number. -/
inductive Number where
  /-- A natural number below `2 ^ 64`. -/
  | natural (value : Nat)
  /-- Any other number. -/
  | other
  deriving DecidableEq, Repr

namespace Number

/-- The bound of the digits that count. -/
def mantissaBound : Nat := UInt64.size

/-- The nearest multiple of a power of two that has 53 binary digits; a tie goes to the even one. -/
def toDouble (n : Nat) : Nat :=
  let shift := n.log2 - 52
  let unit := 1 <<< shift
  let quotient := n / unit
  let twice := 2 * (n % unit)
  let roundsUp := unit < twice || (unit == twice && quotient % 2 == 1)
  (if roundsUp then quotient + 1 else quotient) * unit

/-- The least number that rounds beyond the largest double. -/
def doubleBound : Nat := 1 <<< 1024 - 1 <<< 970

/-- The digits that count of a number, and the power of ten that they are scaled by. -/
structure Scaled where
  mantissa : Nat
  exponent : Int
  /-- A digit did not fit any more. -/
  isFull : Bool

/-- The value of a decimal digit. -/
def digitValue (c : Char) : Nat := c.toNat - 0x30

/-- Takes a digit in front of the point; one that does not fit scales the number. -/
def Scaled.takeWhole (scaled : Scaled) (c : Char) : Scaled :=
  let next := scaled.mantissa * 10 + digitValue c
  if scaled.isFull || mantissaBound ≤ next then
    { scaled with exponent := scaled.exponent + 1, isFull := true }
  else { scaled with mantissa := next }

/-- Takes a digit behind the point; one that does not fit is dropped. -/
def Scaled.takeFraction (scaled : Scaled) (c : Char) : Scaled :=
  let next := scaled.mantissa * 10 + digitValue c
  if scaled.isFull || mantissaBound ≤ next then { scaled with isFull := true }
  else { scaled with mantissa := next, exponent := scaled.exponent - 1 }

/-- The number is in range. -/
def Scaled.isFinite (scaled : Scaled) : Bool :=
  scaled.mantissa == 0 || scaled.exponent < 0 ||
    (scaled.exponent ≤ 308 &&
      toDouble scaled.mantissa * toDouble (Nat.pow 10 scaled.exponent.toNat) < doubleBound)

/-- The number that decimal digits write. -/
def ofDigits (digits : List Char) : Nat :=
  digits.foldl (fun value c => value * 10 + digitValue c) 0

/-- The number that the parts of a literal write; `none` if it is out of range. -/
def ofParts? (isNegative : Bool) (whole : List Char) (fraction? : Option (List Char))
    (exponent? : Option Int) : Option Number :=
  let value := ofDigits whole
  let isWhole := fraction?.isNone && exponent?.isNone
  if isWhole && value < mantissaBound then some (if isNegative then .other else .natural value)
  else
    let scaled := whole.foldl Scaled.takeWhole ⟨0, 0, false⟩
    let scaled := (fraction?.getD []).foldl Scaled.takeFraction { scaled with isFull := false }
    let scaled := { scaled with exponent := scaled.exponent + exponent?.getD 0 }
    if scaled.isFinite then some .other else none

end Number

end EvmObject.Json
