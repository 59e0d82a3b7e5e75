import EvmObject.Bytes.Hex

/-!
# Jump tables

One bit per byte of a code section: set for the opcode bytes, where a jump may land, and cleared for
operand bytes. A table starts out full, and the operands are cleared as they are met.
-/

namespace EvmObject.Code

/-- Which offsets of a code section a jump may land on. -/
structure JumpTable where
  bits : Array Bool
  deriving DecidableEq, Repr

namespace JumpTable

/-- Every offset of a section of `size` bytes. -/
def full (size : Nat) : JumpTable := ⟨Array.replicate size true⟩

/-- Takes `count` offsets from `start` on away; those past the end are none. -/
def clear (table : JumpTable) (start : Nat) : (count : Nat) → JumpTable
  | 0 => table
  | count + 1 => clear ⟨table.bits.setIfInBounds start false⟩ (start + 1) count

/-- Number of bytes that the table covers. -/
def size (table : JumpTable) : Nat := table.bits.size

/-- A jump may land on the offset; never past the end of the table. -/
def isValid (table : JumpTable) (offset : Nat) : Bool :=
  table.bits.getD offset false

/-- One digit per byte: `1` where a jump may land. -/
def digits (table : JumpTable) : String :=
  String.ofList (table.bits.toList.map fun bit => if bit then '1' else '0')

/-- The bits packed into bytes, the lowest bit first. Bits past the end read as `unused`. -/
def packed (table : JumpTable) (unused : Bool) : Bytes :=
  (List.range ((table.size + 7) / 8)).map fun index =>
    UInt8.ofNat <| (List.range 8).foldl
      (fun byte bit =>
        if table.bits.getD (8 * index + bit) unused then byte + 1 <<< bit else byte) 0

/-- The length and the packed bits on one line. -/
def describe (table : JumpTable) (unused : Bool) : String :=
  s!"JumpTable \x7b len: {table.size}, map: {Text.quoted (Hex.encode (table.packed unused))} \x7d"

end JumpTable

end EvmObject.Code
