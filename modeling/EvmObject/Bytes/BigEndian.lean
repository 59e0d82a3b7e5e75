/-!
# Byte strings and big-endian integers

Containers, code sections and operands are byte strings. Sizes and section indices are written as
two bytes, the high one first; a jump offset is the same two bytes read in two's complement.
Main statements: `readU16?_ofU16`, a written integer reads back whatever follows it, and
`length_slice?`, a slice that exists has the length it was asked for.
-/

namespace EvmObject

/-- The bytes of a container, a section or an operand. -/
abbrev Bytes := List UInt8

namespace Bytes

/-! ## Sixteen-bit integers -/

/-- Reads the first two bytes, high byte first; `none` if there are fewer. -/
def readU16? : Bytes → Option UInt16
  | hi :: lo :: _ => some (UInt16.ofNat (hi.toNat * 256 + lo.toNat))
  | _ => none

/-- Writes an integer as two bytes, high byte first. -/
def ofU16 (value : UInt16) : Bytes :=
  [UInt8.ofNat (value.toNat / 256), UInt8.ofNat (value.toNat % 256)]

/-- The two's complement reading of sixteen bits. -/
def signed (value : UInt16) : Int :=
  value.toBitVec.toInt

/-- Reads the first two bytes in two's complement; `none` if there are fewer. -/
def readI16? (bytes : Bytes) : Option Int :=
  (readU16? bytes).map signed

@[simp] theorem length_ofU16 (value : UInt16) : (ofU16 value).length = 2 := rfl

/-- A written integer reads back, whatever bytes follow it. -/
@[simp] theorem readU16?_ofU16 (value : UInt16) (rest : Bytes) :
    readU16? (ofU16 value ++ rest) = some value := by
  have bound := value.toNat_lt
  simp only [ofU16, List.cons_append, List.nil_append, readU16?, Option.some.injEq]
  apply UInt16.toNat_inj.mp
  simp only [UInt8.toNat_ofNat', UInt16.toNat_ofNat']
  omega

/-- Two bytes are the written form of the integer they read as. -/
theorem ofU16_readU16 (hi lo : UInt8) :
    ofU16 (UInt16.ofNat (hi.toNat * 256 + lo.toNat)) = [hi, lo] := by
  have boundHi := hi.toNat_lt
  have boundLo := lo.toNat_lt
  simp only [ofU16, UInt16.toNat_ofNat', List.cons.injEq, and_true]
  constructor <;> apply UInt8.toNat_inj.mp <;> simp only [UInt8.toNat_ofNat'] <;> omega

/-! ## Unsigned integers of any width -/

/-- The number that a byte string writes, high byte first; the empty string writes zero. -/
def toNat (bytes : Bytes) : Nat :=
  bytes.foldl (fun value byte => value * 256 + byte.toNat) 0

/-! ## Slices -/

/-- The bytes from `start` up to `stop`; `none` if the bounds are reversed or past the end. -/
def slice? (bytes : Bytes) (start stop : Nat) : Option Bytes :=
  if start ≤ stop ∧ stop ≤ bytes.length then some ((bytes.drop start).take (stop - start)) else none

/-- At most `size` bytes from `start` on: nothing past the end, and what there is short of it. -/
def window (bytes : Bytes) (start size : Nat) : Bytes :=
  (bytes.drop start).take size

/-- A slice that exists has as many bytes as its bounds span. -/
theorem length_slice? {bytes part : Bytes} {start stop : Nat}
    (h : slice? bytes start stop = some part) : part.length = stop - start := by
  unfold slice? at h
  split at h
  · obtain rfl := Option.some.inj h
    simp only [List.length_take, List.length_drop]
    omega
  · cases h

end Bytes

end EvmObject
